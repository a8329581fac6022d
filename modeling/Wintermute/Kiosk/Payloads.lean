import Wintermute.Foundation.HereString
import Wintermute.Foundation.Utf8
import Wintermute.Text

/-!
# The kiosk payloads

The installer renders three files for the kiosk user with shell functions, and the
library renders the same files with format strings.  The two renderings are equal.  On
the way to the disk the shell renderings go through a quoted here-string, which the
greetd config, with quotes of its own, does not survive.

Main results:

- Theorems {lit}`renderGreetdConfig_eq` and {lit}`renderRecoveryService_eq`: the shell
  functions and the library render the same texts.
- Theorem {lit}`greetdInput_eq`: what arrives of the greetd config ends with the first word
  of its first command.
- Theorem {lit}`kioskPayloads`: the recovery service and the tmpfiles rule arrive as the
  library renders them, for every user, and the greetd config for none.
-/

namespace Wintermute
namespace Kiosk

open Foundation Shell

/-! ## The shell renderings -/

/-- The shell function of the greetd config. -/
def renderGreetdConfig (user : Str) : Str :=
  heredoc
    ["# greetd config — wintermute kiosk autologin".toList,
     "# Installed by install.sh --kiosk for user=".toList ++ user ++ ".".toList,
     "# Reverted by install.sh --uninstall-kiosk.".toList,
     "".toList,
     "[terminal]".toList,
     "vt = 1".toList,
     "".toList,
     "[default_session]".toList,
     "command = \"agreety --cmd wintermute-session\"".toList,
     "user = \"".toList ++ user ++ "\"".toList,
     "".toList,
     "[initial_session]".toList,
     "command = \"wintermute-session\"".toList,
     "user = \"".toList ++ user ++ "\"".toList]

/-- The lines of the recovery service. -/
def recoveryLines (user : Str) : List Str :=
  ["[Unit]".toList,
   "Description=wintermute boot-recovery (start wintermute.target if it failed at login)".toList,
   "Documentation=https://github.com/j0yen/wintermute-platform".toList,
   "After=multi-user.target".toList,
   "".toList,
   "[Service]".toList,
   "Type=oneshot".toList,
   "# Wait 30s for the autologin chain to settle, then verify".toList,
   "# wintermute.target is active for the kiosk user. If not,".toList,
   "# poke it into life via the user's systemd manager.".toList,
   "ExecStart=/bin/sh -c 'sleep 30; runuser -u ".toList ++ user ++
     " -- systemctl --user is-active --quiet wintermute.target || runuser -u ".toList ++ user ++
     " -- systemctl --user start wintermute.target'".toList,
   "RemainAfterExit=no".toList,
   "# Do not block boot; recovery is opportunistic.".toList,
   "TimeoutStartSec=120".toList,
   "".toList,
   "[Install]".toList,
   "WantedBy=multi-user.target".toList]

/-- The shell function of the recovery service. -/
def renderRecoveryService (user : Str) : Str :=
  heredoc (recoveryLines user)

/-- The shell function of the tmpfiles rule. -/
def renderTmpfilesRule (user : Str) : Str :=
  "d /run/wintermute 0755 ".toList ++ user ++ [' '] ++ user ++ " - -\n".toList

/-! ## The library -/

/-- The lines of the greetd config. -/
def greetdLines (user : Str) : List Str :=
  ["# greetd config — wintermute kiosk autologin\n".toList,
   "# Installed by install.sh --kiosk for user=".toList ++ user ++ ".\n".toList,
   "# Reverted by install.sh --uninstall-kiosk.\n".toList,
   "\n".toList,
   "[terminal]\n".toList,
   "vt = 1\n".toList,
   "\n".toList,
   "[default_session]\n".toList,
   "command = \"agreety --cmd wintermute-session\"\n".toList,
   "user = \"".toList ++ user ++ "\"\n".toList,
   "\n".toList,
   "[initial_session]\n".toList,
   "command = \"wintermute-session\"\n".toList,
   "user = \"".toList ++ user ++ "\"\n".toList]

/-- The greetd config. -/
def greetdConfig (user : Str) : Str :=
  (greetdLines user).flatten

/-- The unit of the recovery service. -/
def recoveryServiceUnit (user : Str) : Str :=
  ["[Unit]\n".toList,
   "Description=wintermute boot-recovery (start wintermute.target if it failed at login)\n".toList,
   "Documentation=https://github.com/j0yen/wintermute-platform\n".toList,
   "After=multi-user.target\n".toList,
   "\n".toList,
   "[Service]\n".toList,
   "Type=oneshot\n".toList,
   "# Wait 30s for the autologin chain to settle, then verify\n".toList,
   "# wintermute.target is active for the kiosk user. If not,\n".toList,
   "# poke it into life via the user's systemd manager.\n".toList,
   "ExecStart=/bin/sh -c 'sleep 30; runuser -u ".toList ++ user ++
     " -- systemctl --user is-active --quiet wintermute.target || runuser -u ".toList ++ user ++
     " -- systemctl --user start wintermute.target'\n".toList,
   "RemainAfterExit=no\n".toList,
   "# Do not block boot; recovery is opportunistic.\n".toList,
   "TimeoutStartSec=120\n".toList,
   "\n".toList,
   "[Install]\n".toList,
   "WantedBy=multi-user.target\n".toList].flatten

/-- The tmpfiles rule. -/
def tmpfilesRule (user : Str) : Str :=
  "d /run/wintermute 0755 ".toList ++ user ++ [' '] ++ user ++ " - -\n".toList

/-- A line of the script is a line of the library without its line feed. -/
theorem toList_newline (s : String) : s.toList ++ ['\n'] = (s ++ "\n").toList := by
  simp

theorem renderGreetdConfig_eq (user : Str) : renderGreetdConfig user = greetdConfig user := by
  rw [renderGreetdConfig, heredoc, List.flatMap_def]
  refine congrArg List.flatten ?_
  simp only [greetdLines, List.map_cons, List.map_nil, List.append_assoc, toList_newline,
    String.reduceAppend]

theorem renderRecoveryService_eq (user : Str) :
    renderRecoveryService user = recoveryServiceUnit user := by
  rw [renderRecoveryService, heredoc, List.flatMap_def]
  refine congrArg List.flatten ?_
  simp only [recoveryLines, List.map_cons, List.map_nil, List.append_assoc, toList_newline,
    String.reduceAppend]

/-! ## The way to the disk -/

def greetdConfigPath : Str := "/etc/greetd/config.toml".toList

def tmpfilesRulePath : Str := "/usr/lib/tmpfiles.d/wintermute.conf".toList

def recoveryServicePath : Str :=
  "/usr/lib/systemd/system/wintermute-boot-recovery.service".toList

/-- The command that writes its input to a path. -/
def installCommand (path : Str) : Str :=
  "install -Dm644 /dev/stdin ".toList ++ path ++ [' ']

/-- The bytes fed to the command for a file with this rendering. -/
def installInput (path rendering : Str) : Option (List UInt8) :=
  (hereString (quotedHereString (installCommand path) (commandSubst rendering))).map utf8Bytes

def greetdInput (user : Str) : Option (List UInt8) :=
  installInput greetdConfigPath (renderGreetdConfig user)

def tmpfilesInput (user : Str) : Option (List UInt8) :=
  installInput tmpfilesRulePath (renderTmpfilesRule user)

def recoveryInput (user : Str) : Option (List UInt8) :=
  installInput recoveryServicePath (renderRecoveryService user)

theorem installCommand_noHere {path : Str} (hpath : '<' ∉ path) :
    '<' ∉ installCommand path := by
  exact List.not_mem_append (List.not_mem_append (by decide) hpath) (by decide)

/-- A plain rendering is fed to the command as it is. -/
theorem installInput_plain {path rendering : Str} (hpath : '<' ∉ path)
    (hterminated : Terminated rendering) (hrendering : Plain rendering) :
    installInput path rendering = some (utf8Bytes rendering) := by
  rw [installInput, hereString_plain (installCommand_noHere hpath) hterminated hrendering,
    Option.map_some]

/-- A rendering with a quote is not. -/
theorem installInput_ne {path rendering : Str} (hpath : '<' ∉ path) (hquote : '"' ∈ rendering) :
    installInput path rendering ≠ some (utf8Bytes rendering) := by
  intro heq
  obtain ⟨input, hinput, hbytes⟩ := Option.map_eq_some_iff.mp heq
  have htext : input = rendering := by
    have hread := congrArg fromUtf8 hbytes
    rwa [fromUtf8_utf8Bytes, fromUtf8_utf8Bytes, Option.some.injEq] at hread
  rw [htext] at hinput
  exact quote_notMem_hereString (installCommand_noHere hpath) hinput hquote

/-! ## The payloads of a user -/

/-- Characters of user names. -/
def userChar (c : Char) : Bool :=
  c.isLower || c.isDigit || c == '_' || c == '-'

/-- A user name. -/
structure UserName where
  text : Str
  legal : ∀ c ∈ text, userChar c = true

theorem literal_userChar {c : Char} (hc : userChar c = true) : literal c = true := by
  have hquote : c ≠ '"' := by
    rintro rfl
    cases hc
  have hsubst : substitutes c = false := by
    have hall : ("$`\\".toList.all fun d => !userChar d) = true := by decide
    by_contra hne
    have hmem : c ∈ "$`\\".toList := by
      rw [Bool.not_eq_false, substitutes, List.contains_iff_mem] at hne
      exact hne
    simpa [hc] using List.all_eq_true.mp hall c hmem
  simp [literal, hquote, hsubst]

theorem UserName.plain (user : UserName) : Plain user.text :=
  plain_iff.mpr fun c hc => literal_userChar (user.legal c hc)

/-- The tmpfiles rule arrives. -/
theorem tmpfilesInput_eq (user : UserName) :
    tmpfilesInput user.text = some (utf8Bytes (tmpfilesRule user.text)) := by
  have hfront : Plain "d /run/wintermute 0755 ".toList := by decide
  have hback : Plain " - -\n".toList := by decide
  have hblank : Plain [' '] := by decide
  have hterminated : Terminated " - -\n".toList :=
    ⟨" - ".toList, '-', by decide, by decide⟩
  refine installInput_plain (by decide) (hterminated.append _) ?_
  exact (((hfront.append user.plain).append hblank).append user.plain).append hback

/-- The line of the recovery service with the user. -/
def recoveryExec (user : Str) : Str :=
  "ExecStart=/bin/sh -c 'sleep 30; runuser -u ".toList ++ user ++
    " -- systemctl --user is-active --quiet wintermute.target || runuser -u ".toList ++ user ++
    " -- systemctl --user start wintermute.target'".toList

theorem recoveryExec_plain (user : UserName) : Plain (recoveryExec user.text) := by
  have hfront : Plain "ExecStart=/bin/sh -c 'sleep 30; runuser -u ".toList := by decide
  have hmiddle : Plain
      " -- systemctl --user is-active --quiet wintermute.target || runuser -u ".toList := by
    decide
  have hback : Plain " -- systemctl --user start wintermute.target'".toList := by decide
  exact (((hfront.append user.plain).append hmiddle).append user.plain).append hback

/-- The other lines do not depend on the user. -/
theorem recoveryLines_eq (user : Str) :
    recoveryLines user =
      (recoveryLines []).take 10 ++ recoveryExec user :: (recoveryLines []).drop 11 :=
  rfl

theorem recoveryLines_plain (user : UserName) :
    ∀ line ∈ recoveryLines user.text, Plain line := by
  have hfront : ((recoveryLines []).take 10).all (fun line => line.all literal) = true := by
    decide
  have hback : ((recoveryLines []).drop 11).all (fun line => line.all literal) = true := by
    decide
  rw [recoveryLines_eq]
  refine List.forall_mem_append.mpr ⟨List.all_eq_true.mp hfront, ?_⟩
  exact List.forall_mem_cons.mpr ⟨recoveryExec_plain user, List.all_eq_true.mp hback⟩

/-- The recovery service arrives. -/
theorem recoveryInput_eq (user : UserName) :
    recoveryInput user.text = some (utf8Bytes (recoveryServiceUnit user.text)) := by
  rw [← renderRecoveryService_eq]
  refine installInput_plain (by decide) ?_ (heredoc_plain (recoveryLines_plain user))
  have hlast : recoveryLines user.text =
      (recoveryLines user.text).dropLast ++ ["WantedBy=multi-user.target".toList] := rfl
  rw [renderRecoveryService, hlast]
  exact heredoc_terminated _ (by decide) (by decide)

/-- The greetd config does not. -/
theorem greetdInput_ne (user : Str) : greetdInput user ≠ some (utf8Bytes (greetdConfig user)) := by
  have hquote : '"' ∈ greetdConfig user := by
    refine List.mem_flatten.mpr ⟨"command = \"wintermute-session\"\n".toList, ?_, by decide⟩
    simp [greetdLines]
  rw [← renderGreetdConfig_eq] at hquote ⊢
  exact installInput_ne (by decide) hquote

/-- The part of the greetd config in front of its first quote. -/
def greetdHead (user : Str) : Str :=
  ((greetdLines user).take 8).flatten ++ "command = ".toList

theorem greetdHead_plain (user : UserName) : Plain (greetdHead user.text) := by
  have hfront : ((greetdLines []).take 1).all (fun line => line.all literal) = true := by decide
  have hback : (((greetdLines []).take 8).drop 2).all (fun line => line.all literal) = true := by
    decide
  have hcomment : Plain "# Installed by install.sh --kiosk for user=".toList := by decide
  have hdot : Plain ".\n".toList := by decide
  have hlines : (greetdLines user.text).take 8 =
      (greetdLines []).take 1 ++
        ("# Installed by install.sh --kiosk for user=".toList ++ user.text ++ ".\n".toList) ::
          ((greetdLines []).take 8).drop 2 := rfl
  refine Plain.append (plain_flatten ?_) (by decide)
  rw [hlines]
  refine List.forall_mem_append.mpr ⟨List.all_eq_true.mp hfront, ?_⟩
  exact List.forall_mem_cons.mpr
    ⟨(hcomment.append user.plain).append hdot, List.all_eq_true.mp hback⟩

/-- The first quote opens the first command. -/
theorem greetdConfig_eq (user : Str) :
    ∃ rest, greetdConfig user = greetdHead user ++ '"' :: ("agreety".toList ++ ' ' :: rest) := by
  have hcommand : "command = \"agreety --cmd wintermute-session\"\n".toList =
      "command = ".toList ++ '"' :: ("agreety".toList ++ ' ' ::
        "--cmd wintermute-session\"\n".toList) := by decide
  have hassoc : ∀ lines verb name args behind : Str,
      lines ++ (verb ++ '"' :: (name ++ ' ' :: args) ++ behind) =
        lines ++ verb ++ '"' :: (name ++ ' ' :: (args ++ behind)) := by simp
  refine ⟨"--cmd wintermute-session\"\n".toList ++ ((greetdLines user).drop 9).flatten, ?_⟩
  calc
    greetdConfig user =
        ((greetdLines user).take 8 ++
          "command = \"agreety --cmd wintermute-session\"\n".toList ::
            (greetdLines user).drop 9).flatten := rfl
    _ = ((greetdLines user).take 8).flatten ++
          ("command = \"agreety --cmd wintermute-session\"\n".toList ++
            ((greetdLines user).drop 9).flatten) := List.flatten_append
    _ = _ := by
      rw [hcommand]
      exact hassoc _ _ _ _ _

/-- What arrives of the greetd config ends with the first word of its first command. -/
theorem greetdInput_eq (user : UserName) :
    greetdInput user.text =
      some (utf8Bytes (greetdHead user.text ++ "agreety".toList ++ ['\n'])) := by
  obtain ⟨rest, hrest⟩ := greetdConfig_eq user.text
  have hword : ("agreety".toList.all bare) = true := by decide
  rw [greetdInput, installInput, renderGreetdConfig_eq, hrest,
    hereString_cut (installCommand_noHere (by decide)) (greetdHead_plain user)
      (List.all_eq_true.mp hword), Option.map_some]

/-- **The kiosk payloads.**  For every user the recovery service and the tmpfiles rule
arrive as the library renders them, and the greetd config does not. -/
theorem kioskPayloads (user : UserName) :
    greetdInput user.text ≠ some (utf8Bytes (greetdConfig user.text)) ∧
      recoveryInput user.text = some (utf8Bytes (recoveryServiceUnit user.text)) ∧
      tmpfilesInput user.text = some (utf8Bytes (tmpfilesRule user.text)) :=
  ⟨greetdInput_ne user.text, recoveryInput_eq user, tmpfilesInput_eq user⟩

/-- The installer's default user. -/
def defaultUser : UserName where
  text := "wintermute".toList
  legal := List.all_eq_true.mp (by decide)

/-- The greetd config of the default user stops in the line of the default session. -/
theorem greetdInput_defaultUser :
    greetdInput defaultUser.text =
        some (utf8Bytes (greetdHead defaultUser.text ++ "agreety".toList ++ ['\n'])) ∧
      greetdInput defaultUser.text ≠ some (utf8Bytes (greetdConfig defaultUser.text)) :=
  ⟨greetdInput_eq defaultUser, greetdInput_ne defaultUser.text⟩

end Kiosk
end Wintermute
