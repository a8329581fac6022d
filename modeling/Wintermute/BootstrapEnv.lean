import Wintermute.Foundation.FirstMatch
import Wintermute.Text

/-!
# The bootstrap environment file

The platform reads the bootstrap file with a parser of its own, and the readiness check
looks for the API key in what that parser holds.  The service manager reads the same
file for the environment of the service.  The two agree on the lines, on the white
space and on the last assignment of a key.  They differ in the quotes around a value,
which only the service manager removes, and in lines that start with a semicolon, which
are comments only to the service manager.

Main results:

- Theorem {lit}`parse_keys`: the parser holds the value of the last assignment of a key.
- Theorem {lit}`systemdEnv_eq`: the service receives that value without its quotes.
- Theorem {lit}`checkBrain_systemd`: the readiness check is right about the service's
  key, a key written as a bare pair of quotes apart.
-/

namespace Wintermute

open Foundation

/-! ## The parser -/

/-- The loaded view of the file. -/
structure EnvConfig where
  keys : Str → Option Str

/-- The assignment on a line.  Comments, blank lines and lines without {lit}`=` have
none. -/
def lineEntry (line : Str) : Option (Str × Str) :=
  let trimmed := trim line
  if trimmed.isEmpty || trimmed.head? == some '#' then none
  else (splitOnce '=' trimmed).map fun (k, v) => (trim k, trim v)

/-- Parse the text of an env file. -/
def EnvConfig.parse (text : Str) : EnvConfig where
  keys := ((lines text).filterMap lineEntry).foldl
    (fun keys e => Function.update keys e.1 (some e.2)) fun _ => none

/-- Load an env file; a missing file is no error. -/
def EnvConfig.loadOptional (read : FileReader) (path : List UInt8) :
    Except String (Option EnvConfig) :=
  match read path with
  | .ok text => .ok (some (EnvConfig.parse text))
  | .error .notFound => .ok none
  | .error (.other text) => .error text

/-- The parser holds the value of the last assignment of a key. -/
theorem parse_keys (text key : Str) :
    (EnvConfig.parse text).keys key = lastValue key ((lines text).filterMap lineEntry) :=
  foldl_update_apply _ key

/-! ## The readiness check -/

/-- The result of one readiness check. -/
structure CheckResult where
  name : String
  ok : Bool
  detail : String
deriving DecidableEq, Repr

def checkBrainName : String := "brain"

/-- Where the file is, unless the environment says otherwise. -/
def bootstrapEnvPath : List UInt8 :=
  "/etc/wintermute/conf.d/00-bootstrap.env".toUTF8.toList

/-- The path of the file, from the value of the override variable. -/
def resolveBootstrapEnvPath (override : Option (List UInt8)) : List UInt8 :=
  override.getD bootstrapEnvPath

/-- The variable with the API key. -/
def apiKey : Str := "WM_ANTHROPIC_API_KEY".toList

/-- Check that the API key is not empty; {lit}`display` shows a path to the user. -/
def checkBrain (display : List UInt8 → String) (read : FileReader)
    (envPathOverride override : Option (List UInt8)) : CheckResult :=
  let path := envPathOverride.getD (resolveBootstrapEnvPath override)
  match EnvConfig.loadOptional read path with
  | .ok (some cfg) =>
      let key := (cfg.keys apiKey).getD []
      if key.isEmpty then
        { name := checkBrainName
          ok := false
          detail := "WM_ANTHROPIC_API_KEY is empty in " ++ display path }
      else
        { name := checkBrainName, ok := true, detail := "" }
  | .ok none =>
      { name := checkBrainName
        ok := false
        detail := "bootstrap env not found: " ++ display path }
  | .error e =>
      { name := checkBrainName
        ok := false
        detail := "could not read bootstrap env: " ++ e }

/-- A failed check says why. -/
theorem checkBrain_detail (display : List UInt8 → String) (read : FileReader)
    (envPathOverride override : Option (List UInt8)) :
    (checkBrain display read envPathOverride override).ok = true ↔
      (checkBrain display read envPathOverride override).detail = "" := by
  simp only [checkBrain]
  split
  · split <;> simp
  · simp
  · simp

/-- The check passes when the file assigns a value that is not empty last. -/
theorem checkBrain_ok_iff (display : List UInt8 → String) {read : FileReader}
    {envPathOverride override : Option (List UInt8)} {text : Str}
    (hread : read (envPathOverride.getD (resolveBootstrapEnvPath override)) = .ok text) :
    (checkBrain display read envPathOverride override).ok = true ↔
      ∃ v, (EnvConfig.parse text).keys apiKey = some v ∧ v ≠ [] := by
  have hload : EnvConfig.loadOptional read
      (envPathOverride.getD (resolveBootstrapEnvPath override)) =
        .ok (some (EnvConfig.parse text)) := by
    rw [EnvConfig.loadOptional, hread]
  simp only [checkBrain, hload]
  cases (EnvConfig.parse text).keys apiKey with
  | none => simp
  | some v => cases v <;> simp

/-! ## The service manager -/

/-- The characters that quote a value. -/
def quotes : List Char := "\"'".toList

/-- A value without the quotes that enclose it. -/
def unquote (v : Str) : Str :=
  match v with
  | [] => []
  | q :: rest => if q ∈ quotes ∧ rest.getLast? = some q then rest.dropLast else v

/-- The assignment on a line, where {lit}`blank` is the service manager's white space. -/
def systemdEntry (blank : Char → Bool) (line : Str) : Option (Str × Str) :=
  let strip s := trimEndMatches blank (trimStartMatches blank s)
  let stripped := strip line
  if stripped.isEmpty || stripped.head? == some '#' || stripped.head? == some ';' then none
  else (splitOnce '=' stripped).map fun (k, v) => (strip k, unquote (strip v))

/-- The value of a variable in the environment of the service. -/
def systemdEnv (blank : Char → Bool) (text key : Str) : Option Str :=
  lastValue key ((segments '\n' text).filterMap (systemdEntry blank))

/-- A value is empty behind its quotes when it was empty or is a bare pair of quotes. -/
theorem unquote_eq_nil_iff {v : Str} : unquote v = [] ↔ v = [] ∨ ∃ q ∈ quotes, v = [q, q] := by
  cases v with
  | nil => simp [unquote]
  | cons q rest =>
      rw [unquote]
      split_ifs with hquoted
      · obtain ⟨hq, hlast⟩ := hquoted
        obtain ⟨inner, rfl⟩ := List.getLast?_eq_some_iff.mp hlast
        simp [hq]
      · have hpair : ¬ ∃ p ∈ quotes, q :: rest = [p, p] := by
          rintro ⟨p, hp, heq⟩
          obtain ⟨rfl, rfl⟩ := List.cons.inj heq
          exact hquoted ⟨hp, rfl⟩
        simpa only [reduceCtorEq, false_or, false_iff] using hpair

/-! ## One file, two readings -/

variable {blank : Char → Bool}

/-- The entry of a comment with a semicolon has a key that shows it. -/
theorem lineEntry_semicolon {line rest key value : Str} (hline : trim line = ';' :: rest)
    (hentry : lineEntry line = some (key, value)) : key.head? = some ';' := by
  have hkey : trim (beforeFirst '=' (';' :: rest)) = key := by
    simp only [lineEntry, hline, splitOnce] at hentry
    split_ifs at hentry
    · exact congrArg Prod.fst (Option.some.inj hentry)
    · cases hentry
  rw [← hkey, beforeFirst_cons (by decide)]
  exact head_trim_cons (by decide) _

/-- A comment with a semicolon and an equals sign is an assignment for the parser alone. -/
theorem semicolon_entries {line : Str} (hblank : ∀ c ∈ line, blank c = isWhitespace c)
    (hline : (trim line).head? = some ';') (hequals : '=' ∈ trim line) :
    (∃ key value, lineEntry line = some (key, value) ∧ key.head? = some ';') ∧
      systemdEntry blank line = none := by
  obtain ⟨rest, htrim⟩ := List.head?_eq_some_iff.mp hline
  have hentry : lineEntry line = some (trim (beforeFirst '=' (trim line)),
      trim (afterFirst '=' (trim line))) := by
    simp only [lineEntry, splitOnce, if_pos hequals]
    rw [if_neg (by simp [htrim])]
    rfl
  refine ⟨⟨_, _, hentry, lineEntry_semicolon htrim hentry⟩, ?_⟩
  simp [systemdEntry, trim_congr hblank, hline]

/-- On another line the two readers see the same key, and the same value but for its
quotes. -/
theorem systemdEntry_eq {line : Str} (hblank : ∀ c ∈ line, blank c = isWhitespace c)
    (hline : (trim line).head? ≠ some ';') :
    systemdEntry blank line = (lineEntry line).map fun e => (e.1, unquote e.2) := by
  have hpart : ∀ x, (∀ c ∈ x, c ∈ trim line) →
      trimEndMatches blank (trimStartMatches blank x) = trim x :=
    fun x hx => trim_congr fun c hc => hblank c (mem_of_mem_trim (hx c hc))
  have hsemicolon : ((trim line).head? == some ';') = false := by simpa using hline
  simp only [systemdEntry, lineEntry, trim_congr hblank, hsemicolon, Bool.or_false]
  split_ifs with hskip
  · rfl
  · rw [splitOnce]
    split_ifs with hsep
    · simp only [Option.map_some]
      rw [hpart _ fun c => mem_of_mem_beforeFirst, hpart _ fun c => mem_of_mem_afterFirst]
    · rfl

/-- For a key without semicolon in front the two readers see the same entries. -/
theorem systemdEntry_filter {line key : Str} (hblank : ∀ c ∈ line, blank c = isWhitespace c)
    (hkey : key.head? ≠ some ';') :
    (systemdEntry blank line).filter (fun e => e.1 = key) =
      ((lineEntry line).filter fun e => e.1 = key).map fun e => (e.1, unquote e.2) := by
  cases hline : (trim line).head? == some ';' with
  | false =>
      rw [systemdEntry_eq hblank (by simpa using hline), Option.filter_map]
      rfl
  | true =>
      have hsystemd : systemdEntry blank line = none := by
        simp [systemdEntry, trim_congr hblank, hline]
      obtain ⟨rest, htrim⟩ := List.head?_eq_some_iff.mp (eq_of_beq hline)
      cases hentry : lineEntry line with
      | none => rw [hsystemd]; rfl
      | some e =>
          have hother : ¬ e.1 = key := fun h => hkey (h ▸ lineEntry_semicolon htrim hentry)
          simp [hsystemd, Option.filter, hother]

/-- The characters of a segment are those of the text. -/
theorem blank_segments {text : Str} (hblank : ∀ c ∈ text, blank c = isWhitespace c) :
    ∀ p ∈ segments '\n' text, ∀ c ∈ p, blank c = isWhitespace c := by
  intro p hp c hc
  by_cases hmem : c ∈ text
  · exact hblank c hmem
  · exact absurd hc (notMem_segments hmem p hp)

/-- The service receives for a key what the parser holds, without its quotes, when the
two trim the same characters of the text. -/
theorem systemdEnv_eq {text key : Str} (hblank : ∀ c ∈ text, blank c = isWhitespace c)
    (hkey : key.head? ≠ some ';') :
    systemdEnv blank text key = ((EnvConfig.parse text).keys key).map unquote := by
  have hcr : ∀ p, lineEntry (dropSeparator '\r' p) = lineEntry p := by
    simp [lineEntry, trim_dropSeparator_cr]
  have hentries : ((segments '\n' text).filterMap (systemdEntry blank)).filter
        (fun e => e.1 = key) =
      (((segments '\n' text).filterMap lineEntry).filter fun e => e.1 = key).map
        fun e => (e.1, unquote e.2) := by
    rw [List.filter_filterMap, List.filter_filterMap, List.map_filterMap]
    exact List.filterMap_congr fun p hp => systemdEntry_filter (blank_segments hblank p hp) hkey
  rw [systemdEnv, parse_keys, filterMap_lines hcr, lastValue, lastValue, hentries,
    List.getLast?_map, Option.map_map, Option.map_map]
  rfl

/-- The service receives a nonempty value when the parser holds one, bare pairs of quotes
apart. -/
theorem systemdEnv_nonempty_iff {text key : Str}
    (hblank : ∀ c ∈ text, blank c = isWhitespace c) (hkey : key.head? ≠ some ';') :
    (∃ v, systemdEnv blank text key = some v ∧ v ≠ []) ↔
      (∃ v, (EnvConfig.parse text).keys key = some v ∧ v ≠ []) ∧
        ∀ q ∈ quotes, (EnvConfig.parse text).keys key ≠ some [q, q] := by
  rw [systemdEnv_eq hblank hkey]
  cases (EnvConfig.parse text).keys key with
  | none => simp
  | some v => simp [unquote_eq_nil_iff]

/-- The check passes when the service receives a nonempty key, bare pairs of quotes
apart. -/
theorem checkBrain_iff_systemdEnv {text : Str} (hblank : ∀ c ∈ text, blank c = isWhitespace c)
    (display : List UInt8 → String) {read : FileReader}
    {envPathOverride override : Option (List UInt8)}
    (hread : read (envPathOverride.getD (resolveBootstrapEnvPath override)) = .ok text) :
    (checkBrain display read envPathOverride override).ok = true ↔
      (∃ v, systemdEnv blank text apiKey = some v ∧ v ≠ []) ∨
        ∃ q ∈ quotes, (EnvConfig.parse text).keys apiKey = some [q, q] := by
  rw [checkBrain_ok_iff display hread, systemdEnv_nonempty_iff hblank (by decide)]
  constructor
  · intro hsome
    by_cases hbare : ∃ q ∈ quotes, (EnvConfig.parse text).keys apiKey = some [q, q]
    · exact Or.inr hbare
    · exact Or.inl ⟨hsome, fun q hq heq => hbare ⟨q, hq, heq⟩⟩
  · rintro (⟨hsome, -⟩ | ⟨q, -, hpair⟩)
    · exact hsome
    · exact ⟨[q, q], hpair, List.cons_ne_nil q [q]⟩

/-- **Readiness and the service.**  For every text on which the two trim the same
characters the service receives the parsed values without their quotes, and the readiness
check passes when the service receives a nonempty API key or the key is written as a bare
pair of quotes.  The parsed value of a key is that of its last assignment, and a comment
with a semicolon is an assignment for the parser alone. -/
theorem checkBrain_systemd {text : Str} (hblank : ∀ c ∈ text, blank c = isWhitespace c) :
    (∀ key : Str, key.head? ≠ some ';' →
      systemdEnv blank text key = ((EnvConfig.parse text).keys key).map unquote) ∧
    (∀ (display : List UInt8 → String) (read : FileReader)
      (envPathOverride override : Option (List UInt8)),
      read (envPathOverride.getD (resolveBootstrapEnvPath override)) = .ok text →
        ((checkBrain display read envPathOverride override).ok = true ↔
          (∃ v, systemdEnv blank text apiKey = some v ∧ v ≠ []) ∨
            ∃ q ∈ quotes, (EnvConfig.parse text).keys apiKey = some [q, q])) ∧
    (∀ key, (EnvConfig.parse text).keys key =
      lastValue key ((lines text).filterMap lineEntry)) ∧
    ∀ line ∈ segments '\n' text, (trim line).head? = some ';' → '=' ∈ trim line →
      (∃ key value, lineEntry line = some (key, value) ∧ key.head? = some ';') ∧
        systemdEntry blank line = none :=
  ⟨fun _ => systemdEnv_eq hblank,
    fun display _ _ _ => checkBrain_iff_systemdEnv hblank display,
    parse_keys text,
    fun line hline => semicolon_entries (blank_segments hblank line hline)⟩

/-- What the service manager trims. -/
def systemdBlank (c : Char) : Bool :=
  " \t\n\r".toList.contains c

/-- A file with both kinds of comments, both kinds of quotes and a key assigned twice. -/
def quotedEnv : Str :=
  "# key\n;old=1\n A = \"Mary\"\nWM_ANTHROPIC_API_KEY=\nWM_ANTHROPIC_API_KEY='sk'\n".toList

theorem checkBrain_systemd_quotedEnv :
    systemdEnv systemdBlank quotedEnv "A".toList =
        ((EnvConfig.parse quotedEnv).keys "A".toList).map unquote ∧
      ((checkBrain (fun _ => "") (fun _ => .ok quotedEnv) none none).ok = true ↔
        (∃ v, systemdEnv systemdBlank quotedEnv apiKey = some v ∧ v ≠ []) ∨
          ∃ q ∈ quotes, (EnvConfig.parse quotedEnv).keys apiKey = some [q, q]) ∧
      (EnvConfig.parse quotedEnv).keys apiKey =
        lastValue apiKey ((lines quotedEnv).filterMap lineEntry) ∧
      systemdEntry systemdBlank ";old=1".toList = none := by
  have hall : quotedEnv.all (fun c => systemdBlank c == isWhitespace c) = true := by decide
  have hblank : ∀ c ∈ quotedEnv, systemdBlank c = isWhitespace c :=
    fun c hc => eq_of_beq (List.all_eq_true.mp hall c hc)
  obtain ⟨hkeys, hcheck, hlast, hsemicolon⟩ := checkBrain_systemd hblank
  exact ⟨hkeys _ (by decide), hcheck _ _ none none rfl, hlast apiKey,
    (hsemicolon ";old=1".toList (by decide) (by decide) (by decide)).2⟩

/-- A key written as a bare pair of quotes is ready for the check and empty for the
service, and a comment with a semicolon is an assignment for the parser alone. -/
theorem checkBrain_bareQuotes :
    (checkBrain (fun _ => "") (fun _ => .ok "WM_ANTHROPIC_API_KEY=\"\"\n".toList) none none).ok =
        true ∧
      systemdEnv systemdBlank "WM_ANTHROPIC_API_KEY=\"\"\n".toList apiKey = some [] ∧
      (EnvConfig.parse ";A=1\n".toList).keys ";A".toList = some "1".toList ∧
      systemdEnv systemdBlank ";A=1\n".toList ";A".toList = none := by
  decide

end Wintermute
