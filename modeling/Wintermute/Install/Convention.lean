import Wintermute.Text

/-!
# The install convention

Every fleet binary lives in one directory, and the {lit}`ExecStart=` lines of the
user units are rewritten to it.  The rewriter knows the directories a binary may
have been installed to before; the checker reports the first line that is not yet
rewritten.

Main results:

- Theorem {lit}`extractBinaryName_eq_some_iff`: a path has a binary name exactly when
  it is an accepted directory followed by that name.
- Theorem {lit}`rewriteUnitExecStarts_projection`: the rewrite is an idempotent
  projection onto compliant units that keeps names, arguments and other lines.
-/

namespace Wintermute

open Foundation

/-! ## The rewriter -/

/-- The key of the lines that are rewritten. -/
def execStart : Str := "ExecStart=".toList

/-- The fleet directory as unit files write it. -/
def fleetDir : Str := "%h/.local/bin/".toList

/-- Prefixes a path is stripped of, in the order they are tried. -/
def knownPrefixes : List Str :=
  ["/usr/local/bin/".toList, "%h/.local/bin/".toList, "%h/.cargo/bin/".toList,
    "~/.local/bin/".toList, "~/.cargo/bin/".toList]

/-- What is left of a path is just the binary name. -/
def bareName (rest : Str) : Bool :=
  !rest.isEmpty && !rest.contains '/'

/-- The binary name in a path below a home directory. -/
def extractFromHomePrefix (path : Str) : Option Str := do
  let afterHome ← stripPrefix "/home/".toList path
  let slash ← afterHome.idxOf? '/'
  let afterUser := afterHome.drop (slash + 1)
  let rest ← (stripPrefix ".local/bin/".toList afterUser).or
    (stripPrefix ".cargo/bin/".toList afterUser)
  if bareName rest then some rest else none

/-- The binary name in a path, when it lives under one of the known prefixes. -/
def extractBinaryName (path : Str) : Option Str :=
  (knownPrefixes.findSome? fun known => (stripPrefix known path).filter bareName).or
    (extractFromHomePrefix path)

/-- Rewrite one line so that its binary resolves in the fleet directory. -/
def rewriteExecStart (line : Str) : Str :=
  match stripPrefix execStart line with
  | none => line
  | some rest =>
      let (execPath, argsTail) := (splitOnce ' ' rest).getD (rest, [])
      match extractBinaryName execPath with
      | none => line
      | some bin =>
          let newExec := fleetDir ++ bin
          if argsTail.isEmpty then
            execStart ++ newExec
          else
            execStart ++ newExec ++ ' ' :: argsTail

/-- Rewrite all lines of a unit file. -/
def rewriteUnitExecStarts (unitBody : Str) : Str :=
  joinSegments '\n' ((lines unitBody).map rewriteExecStart) (terminated '\n' unitBody)

/-! ## The checker -/

/-- Result of checking one unit file. -/
structure UnitConventionCheck where
  unitName : Str
  compliant : Bool
  offendingExecStart : Option Str
deriving DecidableEq, Repr

/-- The value of a line that breaks the convention. -/
def offendingValue (line : Str) : Option Str := do
  let rest ← stripPrefix execStart line
  if "/bin/".toList.isPrefixOf rest || "/usr/bin/".toList.isPrefixOf rest then
    none
  else if fleetDir.isPrefixOf rest then
    none
  else
    some rest

/-- Check the lines of a unit file; the first offending value is reported. -/
def checkUnitConvention (unitName unitBody : Str) : UnitConventionCheck :=
  let offending := (lines unitBody).findSome? offendingValue
  { unitName := unitName
    compliant := offending.isNone
    offendingExecStart := offending }

/-! ## Accepted directories -/

/-- The directory for binaries below a home directory. -/
def userBinDirs : List Str :=
  ["/.local/bin/".toList, "/.cargo/bin/".toList]

/-- The directories a fleet binary may have been installed to. -/
inductive AcceptedDir : Str → Prop
  | usrLocal : AcceptedDir "/usr/local/bin/".toList
  | homeSpecifier {home sub : Str} (hhome : home ∈ ["%h".toList, "~".toList])
      (hsub : sub ∈ userBinDirs) : AcceptedDir (home ++ sub)
  | homeOf {user sub : Str} (huser : '/' ∉ user) (hsub : sub ∈ userBinDirs) :
      AcceptedDir ("/home/".toList ++ user ++ sub)

/-- A binary name: nonempty and without a slash. -/
def BinaryName (name : Str) : Prop :=
  name ≠ [] ∧ '/' ∉ name

instance (name : Str) : Decidable (BinaryName name) :=
  inferInstanceAs (Decidable (name ≠ [] ∧ '/' ∉ name))

theorem bareName_iff {rest : Str} : bareName rest = true ↔ BinaryName rest := by
  simp [bareName, BinaryName]

/-- Every prefix of the rewriter's table is an accepted directory. -/
theorem accepted_of_mem_knownPrefixes {known : Str} (hknown : known ∈ knownPrefixes) :
    AcceptedDir known := by
  have hlocal : "/.local/bin/".toList ∈ userBinDirs := List.mem_cons_self
  have hcargo : "/.cargo/bin/".toList ∈ userBinDirs :=
    List.mem_cons_of_mem _ List.mem_cons_self
  have hspec : "%h".toList ∈ ["%h".toList, "~".toList] := List.mem_cons_self
  have htilde : "~".toList ∈ ["%h".toList, "~".toList] :=
    List.mem_cons_of_mem _ List.mem_cons_self
  simp only [knownPrefixes, List.mem_cons, List.not_mem_nil, or_false] at hknown
  rcases hknown with rfl | rfl | rfl | rfl | rfl
  · exact AcceptedDir.usrLocal
  · exact AcceptedDir.homeSpecifier hspec hlocal
  · exact AcceptedDir.homeSpecifier hspec hcargo
  · exact AcceptedDir.homeSpecifier htilde hlocal
  · exact AcceptedDir.homeSpecifier htilde hcargo

theorem fleetDir_accepted : AcceptedDir fleetDir :=
  accepted_of_mem_knownPrefixes (by decide)

/-- Below a home directory one of the two user directories is stripped. -/
theorem extractFromHomePrefix_user {user : Str} (huser : '/' ∉ user) (afterUser : Str) :
    extractFromHomePrefix ("/home/".toList ++ (user ++ '/' :: afterUser)) =
      ((stripPrefix ".local/bin/".toList afterUser).or
        (stripPrefix ".cargo/bin/".toList afterUser)).filter bareName := by
  have hdrop : (user ++ '/' :: afterUser).drop (user.length + 1) = afterUser := by simp
  rw [extractFromHomePrefix, stripPrefix_append]
  simp only [Option.bind_eq_bind, Option.bind_some, idxOf?_append huser, hdrop]
  cases (stripPrefix ".local/bin/".toList afterUser).or
      (stripPrefix ".cargo/bin/".toList afterUser) with
  | none => rfl
  | some rest => rfl

/-- Below a user directory the name is what follows it. -/
theorem extractFromHomePrefix_homeOf {user sub : Str} (huser : '/' ∉ user)
    (hsub : sub ∈ userBinDirs) (rest : Str) :
    extractFromHomePrefix ("/home/".toList ++ (user ++ (sub ++ rest))) =
      if bareName rest then some rest else none := by
  simp only [userBinDirs, List.mem_cons, List.not_mem_nil, or_false] at hsub
  rcases hsub with rfl | rfl
  · refine (extractFromHomePrefix_user huser (".local/bin/".toList ++ rest)).trans ?_
    rw [stripPrefix_append, Option.some_or, Option.filter_some]
  · have hcargo : Incomparable ".local/bin/".toList ".cargo/bin/".toList := by decide
    refine (extractFromHomePrefix_user huser (".cargo/bin/".toList ++ rest)).trans ?_
    rw [stripPrefix_of_incomparable hcargo, stripPrefix_append, Option.none_or,
      Option.filter_some]

/-- Under a prefix of the table the name is what follows it. -/
theorem extractBinaryName_known {dir : Str} (hdir : dir ∈ knownPrefixes) (rest : Str) :
    extractBinaryName (dir ++ rest) = if bareName rest then some rest else none := by
  have htable : knownPrefixes.Pairwise Incomparable := by decide
  have hhome : ∀ known ∈ knownPrefixes, Incomparable "/home/".toList known := by decide
  rw [extractBinaryName, findSome_stripPrefix htable hdir, extractFromHomePrefix,
    stripPrefix_of_incomparable (hhome dir hdir)]
  exact Option.or_none

/-- An accepted directory is in the table or below a home directory. -/
theorem AcceptedDir.known_or_home {dir : Str} (hdir : AcceptedDir dir) :
    dir ∈ knownPrefixes ∨
      ∃ user, '/' ∉ user ∧ ∃ sub ∈ userBinDirs, dir = "/home/".toList ++ user ++ sub := by
  cases hdir with
  | usrLocal => exact Or.inl (by decide)
  | homeSpecifier hhome hsub =>
      have htable : ∀ home ∈ ["%h".toList, "~".toList], ∀ sub ∈ userBinDirs,
          home ++ sub ∈ knownPrefixes := by
        decide
      exact Or.inl (htable _ hhome _ hsub)
  | homeOf huser hsub => exact Or.inr ⟨_, huser, _, hsub, rfl⟩

/-- Under an accepted directory the name is what follows it. -/
theorem extractBinaryName_append {dir : Str} (hdir : AcceptedDir dir) (rest : Str) :
    extractBinaryName (dir ++ rest) = if BinaryName rest then some rest else none := by
  simp only [← bareName_iff]
  rcases hdir.known_or_home with hknown | ⟨user, huser, sub, hsub, rfl⟩
  · exact extractBinaryName_known hknown rest
  · have hhome : ∀ known ∈ knownPrefixes, Incomparable known "/home/".toList := by decide
    rw [List.append_assoc, List.append_assoc, extractBinaryName,
      findSome_stripPrefix_eq_none hhome, Option.none_or, extractFromHomePrefix_homeOf huser hsub]

/-- A path below a home directory has a name only under a user directory. -/
theorem accepted_of_extractFromHomePrefix {path name : Str}
    (hpath : extractFromHomePrefix path = some name) :
    ∃ dir, AcceptedDir dir ∧ path = dir ++ name ∧ BinaryName name := by
  rcases stripPrefix_cases "/home/".toList path with ⟨afterHome, rfl⟩ | hother
  · by_cases hslash : '/' ∈ afterHome
    · obtain ⟨user, afterUser, rfl, huser⟩ := List.eq_append_cons_of_mem hslash
      rw [extractFromHomePrefix_user huser, Option.filter_eq_some_iff, Option.or_eq_some_iff,
        stripPrefix_eq_some_iff, stripPrefix_eq_some_iff] at hpath
      obtain ⟨hrest, hbare⟩ := hpath
      have hbelow : ∃ sub ∈ userBinDirs, '/' :: afterUser = sub ++ name := by
        rcases hrest with rfl | ⟨-, rfl⟩
        · exact ⟨"/.local/bin/".toList, List.mem_cons_self, rfl⟩
        · exact ⟨"/.cargo/bin/".toList, List.mem_cons_of_mem _ List.mem_cons_self, rfl⟩
      obtain ⟨sub, hsub, hafter⟩ := hbelow
      refine ⟨_, AcceptedDir.homeOf huser hsub, ?_, bareName_iff.mp hbare⟩
      rw [hafter, List.append_assoc, List.append_assoc]
    · rw [extractFromHomePrefix, stripPrefix_append, Option.bind_eq_bind, Option.bind_some,
        List.idxOf?_eq_none_iff.mpr hslash] at hpath
      cases hpath
  · rw [extractFromHomePrefix, hother] at hpath
    cases hpath

/-- A path has a binary name exactly when it is an accepted directory followed by
that name. -/
theorem extractBinaryName_eq_some_iff {path name : Str} :
    extractBinaryName path = some name ↔
      ∃ dir, AcceptedDir dir ∧ path = dir ++ name ∧ BinaryName name := by
  constructor
  · intro hpath
    rw [extractBinaryName, Option.or_eq_some_iff] at hpath
    rcases hpath with htable | ⟨-, hhome⟩
    · obtain ⟨known, hknown, hfound⟩ := List.exists_of_findSome?_eq_some htable
      rw [Option.filter_eq_some_iff, stripPrefix_eq_some_iff] at hfound
      exact ⟨known, accepted_of_mem_knownPrefixes hknown, hfound.1, bareName_iff.mp hfound.2⟩
    · exact accepted_of_extractFromHomePrefix hhome
  · rintro ⟨dir, hdir, rfl, hname⟩
    rw [extractBinaryName_append hdir, if_pos hname]

/-! ## Rewriting one line -/

/-- The tail of a rewritten line: a space and the arguments, if there are any. -/
def spacedArgs (args : Str) : Str :=
  if args.isEmpty then [] else ' ' :: args

/-- Lines with another key pass through. -/
theorem rewriteExecStart_of_other {line : Str} (hline : ¬ execStart <+: line) :
    rewriteExecStart line = line := by
  rw [rewriteExecStart, stripPrefix_eq_none_iff.mpr hline]

/-- A value without a binary name is left alone. -/
theorem rewriteExecStart_of_none {value : Str}
    (hname : extractBinaryName (beforeFirst ' ' value) = none) :
    rewriteExecStart (execStart ++ value) = execStart ++ value := by
  simp only [rewriteExecStart, stripPrefix_append, splitOnce_getD, hname]

/-- A value with a binary name keeps the name and the arguments. -/
theorem rewriteExecStart_of_name {value name : Str}
    (hname : extractBinaryName (beforeFirst ' ' value) = some name) :
    rewriteExecStart (execStart ++ value) =
      execStart ++ (fleetDir ++ name ++ spacedArgs (afterFirst ' ' value)) := by
  simp only [rewriteExecStart, stripPrefix_append, splitOnce_getD, hname, spacedArgs]
  split
  · rw [List.append_nil]
  · simp only [List.append_assoc]

/-- Every line passes through, or its value has a binary name. -/
theorem rewriteExecStart_cases (line : Str) :
    rewriteExecStart line = line ∨ ∃ value name, line = execStart ++ value ∧
      extractBinaryName (beforeFirst ' ' value) = some name := by
  rcases stripPrefix_cases execStart line with ⟨value, rfl⟩ | hother
  · cases hname : extractBinaryName (beforeFirst ' ' value) with
    | none => exact Or.inl (rewriteExecStart_of_none hname)
    | some name => exact Or.inr ⟨value, name, rfl, hname⟩
  · exact Or.inl (rewriteExecStart_of_other (stripPrefix_eq_none_iff.mp hother))

/-- The first word and the arguments of a value written with one space between
them. -/
theorem words_spacedArgs {path : Str} (hpath : ' ' ∉ path) (args : Str) :
    beforeFirst ' ' (path ++ spacedArgs args) = path ∧
      afterFirst ' ' (path ++ spacedArgs args) = args := by
  rw [spacedArgs]
  split_ifs with hempty
  · rw [List.append_nil, beforeFirst_of_notMem hpath, afterFirst_of_notMem hpath,
      List.isEmpty_iff.mp hempty]
    exact ⟨rfl, rfl⟩
  · exact ⟨beforeFirst_append hpath args, afterFirst_append hpath args⟩

/-- A value is its first word and its arguments, unless it is the word and one space. -/
theorem eq_spacedArgs_iff (value : Str) :
    value = beforeFirst ' ' value ++ spacedArgs (afterFirst ' ' value) ↔
      value ≠ beforeFirst ' ' value ++ [' '] := by
  by_cases hspace : ' ' ∈ value
  · obtain ⟨path, args, rfl, hpath⟩ := List.eq_append_cons_of_mem hspace
    rw [beforeFirst_append hpath, afterFirst_append hpath]
    cases args with
    | nil => simp [spacedArgs]
    | cons c cs => simp [spacedArgs]
  · rw [beforeFirst_of_notMem hspace, afterFirst_of_notMem hspace]
    simp [spacedArgs]

/-- A name read from the first word of a value has no space. -/
theorem noSpace_of_extract {value name : Str}
    (hname : extractBinaryName (beforeFirst ' ' value) = some name) :
    ' ' ∉ fleetDir ++ name := by
  obtain ⟨dir, -, hpath, -⟩ := extractBinaryName_eq_some_iff.mp hname
  have hspace := notMem_beforeFirst ' ' value
  rw [hpath, List.mem_append, not_or] at hspace
  rw [List.mem_append, not_or]
  exact ⟨by decide, hspace.2⟩

/-- The rewriter leaves its own output alone. -/
theorem rewriteExecStart_idempotent (line : Str) :
    rewriteExecStart (rewriteExecStart line) = rewriteExecStart line := by
  rcases rewriteExecStart_cases line with hsame | ⟨value, name, rfl, hname⟩
  · rw [hsame, hsame]
  · obtain ⟨hfirst, hargs⟩ := words_spacedArgs (noSpace_of_extract hname) (afterFirst ' ' value)
    obtain ⟨_, -, -, hbin⟩ := extractBinaryName_eq_some_iff.mp hname
    have hagain : extractBinaryName (fleetDir ++ name) = some name :=
      extractBinaryName_eq_some_iff.mpr ⟨fleetDir, fleetDir_accepted, rfl, hbin⟩
    rw [rewriteExecStart_of_name hname, rewriteExecStart_of_name (hfirst.symm ▸ hagain), hargs]

/-- The rewriter introduces no symbol that the key and the fleet directory lack. -/
theorem notMem_rewriteExecStart {c : Char} (hkey : c ∉ execStart ++ fleetDir) (hspace : c ≠ ' ')
    {line : Str} (hline : c ∉ line) : c ∉ rewriteExecStart line := by
  rcases rewriteExecStart_cases line with hsame | ⟨value, name, rfl, hname⟩
  · rwa [hsame]
  · obtain ⟨dir, -, hpath, -⟩ := extractBinaryName_eq_some_iff.mp hname
    rw [List.mem_append, not_or] at hkey hline
    have hbin : c ∉ name := by
      intro hmem
      have hpathMem : c ∈ beforeFirst ' ' value := hpath ▸ List.mem_append_right dir hmem
      exact hline.2 (mem_of_mem_beforeFirst hpathMem)
    have hargs : c ∉ spacedArgs (afterFirst ' ' value) := by
      rw [spacedArgs]
      split
      · exact List.not_mem_nil
      · rw [List.mem_cons, not_or]
        exact ⟨hspace, fun hmem => hline.2 (mem_of_mem_afterFirst hmem)⟩
    rw [rewriteExecStart_of_name hname]
    simp only [List.mem_append, not_or]
    exact ⟨hkey.1, ⟨hkey.2, hbin⟩, hargs⟩

/-- The rewriter empties no line. -/
theorem rewriteExecStart_ne_nil {line : Str} (hline : line ≠ []) :
    rewriteExecStart line ≠ [] := by
  rcases rewriteExecStart_cases line with hsame | ⟨value, name, rfl, hname⟩
  · rwa [hsame]
  · rw [rewriteExecStart_of_name hname]
    exact List.append_ne_nil_of_left_ne_nil (by decide) _

/-! ## Rewriting a unit file -/

/-- A last line without newline is rewritten as it is. -/
theorem rewriteUnitExecStarts_last {p : Str} (hne : p ≠ []) (hp : '\n' ∉ p) :
    rewriteUnitExecStarts p = rewriteExecStart p := by
  simp [rewriteUnitExecStarts, joinSegments, lines_last hne hp, terminated_last hp]

/-- The first line is rewritten in place, without a carriage return at its end. -/
theorem rewriteUnitExecStarts_cons {p : Str} (hp : '\n' ∉ p) (rest : Str) :
    rewriteUnitExecStarts (p ++ '\n' :: rest) =
      rewriteExecStart (dropSeparator '\r' p) ++ '\n' :: rewriteUnitExecStarts rest := by
  have hnil : (lines rest).map rewriteExecStart = [] ↔ rest = [] := by
    rw [List.map_eq_nil_iff, lines_eq_nil_iff]
  rw [rewriteUnitExecStarts, rewriteUnitExecStarts, lines_cons hp, terminated_cons,
    List.map_cons, joinSegments_cons hnil]

section Unit

variable {unitBody : Str}

theorem newline_notMem_rewriteExecStart :
    ∀ line ∈ segments '\n' unitBody, '\n' ∉ rewriteExecStart line :=
  fun _ hline => notMem_rewriteExecStart (by decide) (by decide) (notMem_of_mem_segments hline)

variable (hcr : '\r' ∉ unitBody)

include hcr

/-- Without carriage returns the rewrite edits the segments of the body. -/
theorem rewriteUnitExecStarts_eq :
    rewriteUnitExecStarts unitBody = mapSegments '\n' rewriteExecStart unitBody := by
  rw [rewriteUnitExecStarts, lines_of_noCr hcr, mapSegments]

/-- The rewrite introduces no carriage return. -/
theorem cr_notMem_rewriteUnitExecStarts : '\r' ∉ rewriteUnitExecStarts unitBody := by
  rw [rewriteUnitExecStarts_eq hcr]
  refine notMem_mapSegments (by decide) fun line hline => ?_
  exact notMem_rewriteExecStart (by decide) (by decide) (notMem_segments hcr line hline)

/-- The lines of the rewritten body are the rewritten lines. -/
theorem lines_rewriteUnitExecStarts :
    lines (rewriteUnitExecStarts unitBody) = (lines unitBody).map rewriteExecStart := by
  rw [lines_of_noCr (cr_notMem_rewriteUnitExecStarts hcr), rewriteUnitExecStarts_eq hcr,
    lines_of_noCr hcr, segments_mapSegments newline_notMem_rewriteExecStart
      fun _ _ => rewriteExecStart_ne_nil]

/-- The newline at the end, or its absence, is kept. -/
theorem terminated_rewriteUnitExecStarts :
    terminated '\n' (rewriteUnitExecStarts unitBody) = terminated '\n' unitBody := by
  rw [rewriteUnitExecStarts_eq hcr, terminated_mapSegments newline_notMem_rewriteExecStart
    fun _ _ => rewriteExecStart_ne_nil]

/-- Rewriting twice is rewriting once. -/
theorem rewriteUnitExecStarts_idempotent :
    rewriteUnitExecStarts (rewriteUnitExecStarts unitBody) =
      rewriteUnitExecStarts unitBody := by
  rw [rewriteUnitExecStarts, lines_rewriteUnitExecStarts hcr,
    terminated_rewriteUnitExecStarts hcr, List.map_map]
  have htwice : rewriteExecStart ∘ rewriteExecStart = rewriteExecStart :=
    funext rewriteExecStart_idempotent
  rw [htwice, rewriteUnitExecStarts]

end Unit

/-! ## Projection onto compliant units -/

/-- The first word of a value is an accepted directory and a binary name. -/
def Names (value name : Str) : Prop :=
  ∃ dir, AcceptedDir dir ∧ BinaryName name ∧ beforeFirst ' ' value = dir ++ name

theorem names_iff {value name : Str} :
    Names value name ↔ extractBinaryName (beforeFirst ' ' value) = some name := by
  rw [extractBinaryName_eq_some_iff]
  exact exists_congr fun dir => and_congr_right fun _ => and_comm

/-- A value that the checker ignores, or that the rewriter can bring to the fleet
directory. -/
def Rewritable (value : Str) : Prop :=
  "/bin/".toList <+: value ∨ "/usr/bin/".toList <+: value ∨ ∃ name, Names value name

/-- What the rewrite keeps of a line: the name and the arguments when its value names
a binary, everything otherwise. -/
structure LineKept (line rewritten : Str) : Prop where
  named : ∀ value name, line = execStart ++ value → Names value name →
    ∃ value', rewritten = execStart ++ value' ∧ beforeFirst ' ' value' = fleetDir ++ name ∧
      afterFirst ' ' value' = afterFirst ' ' value
  other : (∀ value name, line = execStart ++ value → ¬ Names value name) → rewritten = line

/-- Rewriting keeps a line's name, arguments and everything else. -/
theorem rewriteExecStart_kept (line : Str) : LineKept line (rewriteExecStart line) := by
  constructor
  · intro value name hline hnames
    have hname := names_iff.mp hnames
    obtain ⟨hfirst, hargs⟩ := words_spacedArgs (noSpace_of_extract hname) (afterFirst ' ' value)
    exact ⟨_, hline ▸ rewriteExecStart_of_name hname, hfirst, hargs⟩
  · intro hnone
    rcases rewriteExecStart_cases line with hsame | ⟨value, name, hline, hname⟩
    · exact hsame
    · exact absurd (names_iff.mpr hname) (hnone value name hline)

/-- A line passes the check when its value is ignored or in the fleet directory. -/
theorem offendingValue_eq_none_iff {line : Str} :
    offendingValue line = none ↔ ∀ value, line = execStart ++ value →
      "/bin/".toList <+: value ∨ "/usr/bin/".toList <+: value ∨ fleetDir <+: value := by
  rcases stripPrefix_cases execStart line with ⟨value, rfl⟩ | hother
  · simp only [offendingValue, stripPrefix_append, Option.bind_eq_bind, Option.bind_some,
      List.append_right_inj, forall_eq', ← List.isPrefixOf_iff_prefix]
    split_ifs with hignored hfleet
    · rw [Bool.or_eq_true] at hignored
      tauto
    · tauto
    · rw [Bool.or_eq_true] at hignored
      tauto
  · have hnot := stripPrefix_eq_none_iff.mp hother
    simp only [offendingValue, hother, Option.bind_eq_bind, Option.bind_none, true_iff]
    intro value hline
    exact absurd ⟨value, hline.symm⟩ hnot

/-- A rewritable line passes the check once it is rewritten. -/
theorem offendingValue_rewriteExecStart {line : Str}
    (hline : ∀ value, line = execStart ++ value → Rewritable value) :
    offendingValue (rewriteExecStart line) = none := by
  rw [offendingValue_eq_none_iff]
  rcases rewriteExecStart_cases line with hsame | ⟨value, name, rfl, hname⟩
  · intro value hvalue
    rw [hsame] at hvalue
    rcases hline value hvalue with hbin | husr | ⟨name, hnames⟩
    · exact Or.inl hbin
    · exact Or.inr (Or.inl husr)
    · rw [hvalue, rewriteExecStart_of_name (names_iff.mp hnames), List.append_right_inj] at hsame
      rw [← hsame, List.append_assoc]
      exact Or.inr (Or.inr (List.prefix_append _ _))
  · intro value' hvalue
    rw [rewriteExecStart_of_name hname, List.append_right_inj] at hvalue
    rw [← hvalue, List.append_assoc]
    exact Or.inr (Or.inr (List.prefix_append _ _))

/-- A unit is compliant when every line passes. -/
theorem compliant_iff {unitName unitBody : Str} :
    (checkUnitConvention unitName unitBody).compliant = true ↔
      ∀ line ∈ lines unitBody, offendingValue line = none := by
  rw [checkUnitConvention, Option.isNone_iff_eq_none, List.findSome?_eq_none_iff]

/-- The rewrite is a projection onto compliant units.  For a body without carriage
returns: rewriting twice is rewriting once, and the number of lines and the newline at
the end are kept.  If every {lit}`ExecStart=` value is rewritable, the rewritten body
is compliant and every line is kept up to the directory of its binary. -/
theorem rewriteUnitExecStarts_projection (unitBody : Str) (hcr : '\r' ∉ unitBody) :
    rewriteUnitExecStarts (rewriteUnitExecStarts unitBody) = rewriteUnitExecStarts unitBody ∧
    (lines (rewriteUnitExecStarts unitBody)).length = (lines unitBody).length ∧
    terminated '\n' (rewriteUnitExecStarts unitBody) = terminated '\n' unitBody ∧
    ((∀ value, execStart ++ value ∈ lines unitBody → Rewritable value) →
      (∀ unitName,
        (checkUnitConvention unitName (rewriteUnitExecStarts unitBody)).compliant = true) ∧
      List.Forall₂ LineKept (lines unitBody) (lines (rewriteUnitExecStarts unitBody))) := by
  refine ⟨rewriteUnitExecStarts_idempotent hcr, ?_, terminated_rewriteUnitExecStarts hcr, ?_⟩
  · rw [lines_rewriteUnitExecStarts hcr, List.length_map]
  · intro hrewritable
    rw [lines_rewriteUnitExecStarts hcr]
    constructor
    · intro unitName
      rw [compliant_iff, lines_rewriteUnitExecStarts hcr, List.forall_mem_map]
      intro line hline
      refine offendingValue_rewriteExecStart fun value hvalue => ?_
      rw [hvalue] at hline
      exact hrewritable value hline
    · rw [List.forall₂_map_right_iff, List.forall₂_same]
      exact fun line _ => rewriteExecStart_kept line

/-- A unit file with one line of each kind. -/
def mixedUnit : Str :=
  "[Service]\nExecStart=/bin/sh -c true\nExecStart=/home/jsy/.cargo/bin/wm-tts start".toList

theorem rewriteUnitExecStarts_projection_mixedUnit :
    (checkUnitConvention "wm-tts.service".toList
      (rewriteUnitExecStarts mixedUnit)).compliant = true ∧
    List.Forall₂ LineKept (lines mixedUnit) (lines (rewriteUnitExecStarts mixedUnit)) := by
  have hlines : lines mixedUnit = ["[Service]".toList, execStart ++ "/bin/sh -c true".toList,
      execStart ++ "/home/jsy/.cargo/bin/wm-tts start".toList] := by
    decide
  have hrewritable : ∀ value, execStart ++ value ∈ lines mixedUnit → Rewritable value := by
    intro value hvalue
    rw [hlines] at hvalue
    simp only [List.mem_cons, List.append_right_inj, List.not_mem_nil, or_false] at hvalue
    have hother : ¬ execStart <+: "[Service]".toList := by decide
    rcases hvalue with hservice | hshell | hbin
    · exact absurd ⟨value, hservice⟩ hother
    · rw [hshell]
      exact Or.inl ⟨"sh -c true".toList, by simp⟩
    · rw [hbin]
      exact Or.inr (Or.inr ⟨"wm-tts".toList, names_iff.mpr (by decide)⟩)
  have hkept := (rewriteUnitExecStarts_projection mixedUnit (by decide)).2.2.2 hrewritable
  exact ⟨hkept.1 _, hkept.2⟩

end Wintermute
