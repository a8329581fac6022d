import Wintermute.Install.Convention

/-!
# The doctor's view of a unit file

The doctor reads the binary of a unit from the first {lit}`ExecStart=` line with a
word in it.  It trims the line, skips the service manager's modifiers and takes the
first word, while the rewriter looks at the very start of the line and at the first
space.

Main results:

- Theorem {lit}`parseExecStart_rewrite`: the doctor reads a rewritten body line by line.
- Theorem {lit}`parseExecStart_rewrite_iff`: after the rewrite the doctor finds the binary
  in the fleet directory exactly when it was there already or its path stands right
  behind the key.
- Theorem {lit}`parseExecStart_modifier`: behind a modifier the old path survives.
-/

namespace Wintermute

open Foundation

/-! ## The parser -/

/-- The modifiers the service manager allows in front of a path. -/
def execModifiers : List Char := ['-', '@', '+', '!']

/-- The first word of a line's {lit}`ExecStart=` value, if it has one. -/
def execToken (line : Str) : Option Str :=
  match stripPrefix execStart (trim line) with
  | none => none
  | some rest =>
      let stripped := trimStartMatches execModifiers.contains rest
      let firstToken := (firstWord isWhitespace stripped).getD []
      if firstToken.isEmpty then none else some firstToken

/-- The binary of a unit as the service manager prints it. -/
def parseExecStart (systemctlCatOutput : Str) : Option Str :=
  (lines systemctlCatOutput).findSome? execToken

/-! ## One line -/

/-- The token of a line is the first word of its value behind the modifiers. -/
theorem execToken_of_value {line value : Str}
    (hline : stripPrefix execStart (trim line) = some value) :
    execToken line = firstWord isWhitespace (trimStartMatches execModifiers.contains value) := by
  simp only [execToken, hline]
  cases hword : firstWord isWhitespace (trimStartMatches execModifiers.contains value) with
  | none => rfl
  | some word =>
      have hne := (firstWord_spec hword).1
      rw [Option.getD_some, if_neg fun hempty => hne (List.isEmpty_iff.mp hempty)]

/-- On a line that starts with the key nothing is trimmed away from its token. -/
theorem execToken_execStart (value : Str) :
    execToken (execStart ++ value) =
      firstWord isWhitespace (trimStartMatches execModifiers.contains value) := by
  have htrim : trim (execStart ++ value) = execStart ++ trimEndMatches isWhitespace value := by
    change trimEndMatches isWhitespace ("ExecStart".toList ++ ['='] ++ value) = _
    exact trimEndMatches_front (by decide) value
  obtain ⟨blank, hvalue, hblank⟩ := exists_eq_trimEndMatches_append isWhitespace value
  rw [execToken_of_value (htrim ▸ stripPrefix_append _ _)]
  conv_rhs => rw [hvalue]
  exact (firstWord_trimStartMatches_append_blank hblank).symm

/-- A carriage return at the end of a line does not change its token. -/
theorem execToken_dropSeparator_cr (line : Str) :
    execToken (dropSeparator '\r' line) = execToken line := by
  rw [execToken, execToken, trim_dropSeparator_cr]

/-- An accepted directory starts with a symbol that the doctor does not skip. -/
theorem accepted_head {dir : Str} (hdir : AcceptedDir dir) :
    ∃ c rest, dir = c :: rest ∧ isWhitespace c = false ∧ execModifiers.contains c = false := by
  cases hdir with
  | usrLocal => exact ⟨_, _, rfl, by decide⟩
  | homeSpecifier hhome hsub =>
      simp only [List.mem_cons, List.not_mem_nil, or_false] at hhome
      rcases hhome with rfl | rfl
      · exact ⟨_, _, rfl, by decide⟩
      · exact ⟨_, _, rfl, by decide⟩
  | homeOf huser hsub => exact ⟨_, _, rfl, by decide⟩

/-- A value that starts with such a symbol has its first word at the start. -/
theorem exists_token_of_head {c : Char} (hspace : isWhitespace c = false)
    (hmod : execModifiers.contains c = false) (rest : Str) :
    ∃ token tail, c :: rest = token ++ tail ∧
      execToken (execStart ++ c :: rest) = some token := by
  have htrim : trimStartMatches execModifiers.contains (c :: rest) = c :: rest :=
    List.dropWhile_cons_of_neg (by rw [hmod]; exact Bool.false_ne_true)
  refine ⟨c :: rest.takeWhile (fun a => !isWhitespace a),
    rest.dropWhile (fun a => !isWhitespace a), ?_, ?_⟩
  · rw [List.cons_append, List.takeWhile_append_dropWhile]
  · rw [execToken_execStart, htrim]
    exact firstWord_front (List.cons_ne_nil c []) (List.forall_mem_singleton.mpr hspace) rest

/-- A value with a binary name has its token at the start. -/
theorem exists_token_of_name {value name : Str}
    (hname : extractBinaryName (beforeFirst ' ' value) = some name) :
    ∃ token tail, value = token ++ tail ∧ execToken (execStart ++ value) = some token := by
  obtain ⟨dir, hdir, hpath, -⟩ := extractBinaryName_eq_some_iff.mp hname
  obtain ⟨c, rest, rfl, hspace, hmod⟩ := accepted_head hdir
  obtain ⟨after, hafter⟩ := beforeFirst_isPrefix ' ' value
  rw [hpath, List.cons_append, List.cons_append] at hafter
  rw [← hafter]
  exact exists_token_of_head hspace hmod _

/-- The rewriter leaves a line without token alone. -/
theorem rewriteExecStart_of_noToken {line : Str} (hline : execToken line = none) :
    rewriteExecStart line = line := by
  rcases rewriteExecStart_cases line with hsame | ⟨value, name, rfl, hname⟩
  · exact hsame
  · obtain ⟨token, -, -, htoken⟩ := exists_token_of_name hname
    rw [hline] at htoken
    cases htoken

/-! ## The rewritten body -/

theorem parseExecStart_last {p : Str} (hp : '\n' ∉ p) : parseExecStart p = execToken p := by
  by_cases hne : p = []
  · rw [hne]
    rfl
  · rw [parseExecStart, lines_last hne hp, List.findSome?_singleton]

theorem parseExecStart_cons {p : Str} (hp : '\n' ∉ p) (rest : Str) :
    parseExecStart (p ++ '\n' :: rest) = (execToken p).or (parseExecStart rest) := by
  rw [parseExecStart, lines_cons hp, List.findSome?_cons, execToken_dropSeparator_cr,
    parseExecStart]
  cases execToken p with
  | none => rfl
  | some token => rfl

/-- The doctor reads a rewritten body line by line, carriage returns or not. -/
theorem parseExecStart_rewrite (body : Str) :
    parseExecStart (rewriteUnitExecStarts body) =
      (lines body).findSome? (execToken ∘ rewriteExecStart) := by
  have hkeep : ∀ {line : Str}, '\n' ∉ line → '\n' ∉ rewriteExecStart line :=
    notMem_rewriteExecStart (by decide) (by decide)
  induction body using segments_induction '\n' with
  | nil => rfl
  | last p hne hp =>
      rw [rewriteUnitExecStarts_last hne hp, parseExecStart_last (hkeep hp), lines_last hne hp,
        List.findSome?_singleton, Function.comp_apply]
  | cons p rest hp ih =>
      rw [rewriteUnitExecStarts_cons hp, parseExecStart_cons (hkeep (notMem_dropSeparator hp)),
        ih, lines_cons hp, List.findSome?_cons, Function.comp_apply]
      cases execToken (rewriteExecStart (dropSeparator '\r' p)) with
      | none => rfl
      | some token => rfl

/-! ## Rewriter and doctor on the same unit -/

/-- The line that the doctor reads the binary from. -/
def decidingLine (body : Str) : Option Str :=
  (lines body).find? fun line => (execToken line).isSome

/-- The path stands right behind the key, and no slash follows it before the first
space. -/
def Anchored (line path : Str) : Prop :=
  ∃ tail, line = execStart ++ (path ++ tail) ∧ '/' ∉ beforeFirst ' ' tail

/-- A token has no white space. -/
theorem noWhitespace_of_token {line token : Str} (htoken : execToken line = some token) :
    ∀ c ∈ token, isWhitespace c = false := by
  cases hvalue : stripPrefix execStart (trim line) with
  | none =>
      rw [execToken, hvalue] at htoken
      cases htoken
  | some value =>
      rw [execToken_of_value hvalue] at htoken
      exact (firstWord_spec htoken).2

theorem noSpace_of_token {line token : Str} (htoken : execToken line = some token) :
    ' ' ∉ token := by
  intro hspace
  have hfalse := noWhitespace_of_token htoken ' ' hspace
  cases hfalse

theorem noWhitespace_fleetDir : ∀ c ∈ fleetDir, isWhitespace c = false := by
  have hall : fleetDir.all (fun c => !isWhitespace c) = true := by decide
  simpa only [List.all_eq_true, Bool.not_eq_true'] using hall

/-- What a rewritten line has behind the name starts with white space when the old
value had it behind the path. -/
theorem head_rewrittenTail {tail : Str} (htail : ∀ c ∈ tail.head?, isWhitespace c = true)
    (args : Str) :
    ∀ c ∈ (beforeFirst ' ' tail ++ spacedArgs args).head?, isWhitespace c = true := by
  have hargs : ∀ c ∈ (spacedArgs args).head?, isWhitespace c = true := by
    rw [spacedArgs]
    split
    · exact fun c hc => absurd hc (by simp)
    · exact fun c hc => by cases hc; rfl
  cases tail with
  | nil => exact hargs
  | cons a as =>
      by_cases ha : a = ' '
      · rw [ha, beforeFirst_self]
        exact hargs
      · rw [beforeFirst_cons ha]
        exact htail

/-- Behind the key the path is moved to the fleet directory. -/
theorem execToken_rewrite_of_anchored {line path name : Str} (hpath : execToken line = some path)
    (hname : extractBinaryName path = some name) (hanchored : Anchored line path) :
    execToken (rewriteExecStart line) = some (fleetDir ++ name) := by
  obtain ⟨tail, rfl, hslash⟩ := hanchored
  have hspace := noSpace_of_token hpath
  have hword := noWhitespace_of_token hpath
  obtain ⟨dir, hdir, rfl, hbin⟩ := extractBinaryName_eq_some_iff.mp hname
  -- the doctor's token ends where white space starts
  have htail : ∀ c ∈ tail.head?, isWhitespace c = true := by
    refine head_blank_of_firstWord (w := dir ++ name) ?_
    rw [execToken_execStart] at hpath
    obtain ⟨c, rest, rfl, -, hmod⟩ := accepted_head hdir
    rwa [trimStartMatches, List.cons_append, List.cons_append,
      List.dropWhile_cons_of_neg (by rw [hmod]; exact Bool.false_ne_true)] at hpath
  -- what is glued to the name goes with it
  have hread : extractBinaryName (beforeFirst ' ' (dir ++ name ++ tail)) =
      some (name ++ beforeFirst ' ' tail) := by
    rw [beforeFirst_front hspace, List.append_assoc, extractBinaryName_append hdir, if_pos]
    refine ⟨List.append_ne_nil_of_left_ne_nil hbin.1 _, ?_⟩
    rw [List.mem_append, not_or]
    exact ⟨hbin.2, hslash⟩
  have hfleet : ∀ c ∈ fleetDir ++ name, isWhitespace c = false := by
    rw [List.forall_mem_append]
    exact ⟨noWhitespace_fleetDir, fun c hc => hword c (List.mem_append_right _ hc)⟩
  rw [rewriteExecStart_of_name hread, execToken_execStart, ← List.append_assoc, List.append_assoc]
  exact firstWord_append (List.append_ne_nil_of_left_ne_nil (by decide) _) hfleet
    (head_rewrittenTail htail _)

/-- Elsewhere the rewriter leaves the line alone. -/
theorem rewriteExecStart_of_not_anchored {line path name : Str}
    (hpath : execToken line = some path) (hname : extractBinaryName path = some name)
    (hnot : ¬ Anchored line path) : rewriteExecStart line = line := by
  rcases rewriteExecStart_cases line with hsame | ⟨value, name', rfl, hname'⟩
  · exact hsame
  · obtain ⟨token, tail, rfl, htoken⟩ := exists_token_of_name hname'
    rw [htoken, Option.some.injEq] at hpath
    subst hpath
    refine absurd ⟨tail, rfl, ?_⟩ hnot
    rw [beforeFirst_front (noSpace_of_token htoken)] at hname'
    obtain ⟨dir, hdir, rfl, hbin⟩ := extractBinaryName_eq_some_iff.mp hname
    rw [List.append_assoc, extractBinaryName_append hdir] at hname'
    split_ifs at hname' with hglued
    exact fun hmem => hglued.2 (List.mem_append_right _ hmem)

/-- After the rewrite the doctor finds the binary in the fleet directory exactly when
it was there already or its path stands right behind the key of the deciding line. -/
theorem parseExecStart_rewrite_iff {body path name : Str}
    (hpath : parseExecStart body = some path) (hname : extractBinaryName path = some name) :
    parseExecStart (rewriteUnitExecStarts body) = some (fleetDir ++ name) ↔
      path = fleetDir ++ name ∨ ∃ line ∈ decidingLine body, Anchored line path := by
  obtain ⟨before, line, after, hlines, hline, hbefore⟩ := List.findSome?_eq_some_iff.mp hpath
  have hdeciding : decidingLine body = some line := by
    rw [decidingLine, List.find?_eq_some_iff_append]
    refine ⟨by rw [hline]; rfl, before, after, hlines, fun l hl => ?_⟩
    rw [hbefore l hl]
    rfl
  have hrewritten : parseExecStart (rewriteUnitExecStarts body) =
      (execToken (rewriteExecStart line)).or
        (after.findSome? (execToken ∘ rewriteExecStart)) := by
    have hnone : before.findSome? (execToken ∘ rewriteExecStart) = none := by
      refine List.findSome?_eq_none_iff.mpr fun l hl => ?_
      rw [Function.comp_apply, rewriteExecStart_of_noToken (hbefore l hl), hbefore l hl]
    rw [parseExecStart_rewrite, hlines, List.findSome?_append, hnone, Option.none_or,
      List.findSome?_cons, Function.comp_apply]
    cases execToken (rewriteExecStart line) with
    | none => rfl
    | some token => rfl
  rw [hrewritten, hdeciding]
  simp only [Option.mem_some_iff, exists_eq_left']
  by_cases hanchored : Anchored line path
  · rw [execToken_rewrite_of_anchored hline hname hanchored]
    exact iff_of_true rfl (Or.inr hanchored)
  · rw [rewriteExecStart_of_not_anchored hline hname hanchored, hline, Option.some_or,
      Option.some.injEq, or_iff_left hanchored]

/-- A unit file whose path stands right behind the key. -/
def audioUnit : Str :=
  "[Service]\n ExecStart=\nExecStart=/usr/local/bin/wm-audio start\n".toList

theorem parseExecStart_rewrite_iff_audioUnit :
    parseExecStart (rewriteUnitExecStarts audioUnit) = some "%h/.local/bin/wm-audio".toList := by
  have hpath : parseExecStart audioUnit = some "/usr/local/bin/wm-audio".toList := by decide
  have hname : extractBinaryName "/usr/local/bin/wm-audio".toList = some "wm-audio".toList := by
    decide
  refine (parseExecStart_rewrite_iff hpath hname).mpr (Or.inr ?_)
  refine ⟨"ExecStart=/usr/local/bin/wm-audio start".toList, by decide, ?_⟩
  exact ⟨" start".toList, by decide, by decide⟩

/-- The same unit whose failures the service manager is told to ignore. -/
def ignoredFailureUnit : Str :=
  "[Service]\nExecStart=-/usr/local/bin/wm-audio start\n".toList

/-- Behind a modifier the doctor still reads the old path after the rewrite. -/
theorem parseExecStart_modifier :
    parseExecStart ignoredFailureUnit = some "/usr/local/bin/wm-audio".toList ∧
    extractBinaryName "/usr/local/bin/wm-audio".toList = some "wm-audio".toList ∧
    parseExecStart (rewriteUnitExecStarts ignoredFailureUnit) ≠
      some (fleetDir ++ "wm-audio".toList) := by
  decide

end Wintermute
