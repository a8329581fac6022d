import Wintermute.Foundation.Occurrences
import Wintermute.Text

/-!
# Specifier expansion

The doctor fills in the home directory, the user name and the user id of a path with
three replacements of the whole text, one after another.  The service manager reads a
path once from left to right, a percent sign together with the character behind it.
The two agree as long as no replacement finds a pair that is not a specifier of the
path: behind an escaped percent sign, or in what an earlier replacement inserted.

Main results:

- Theorem {lit}`replaceAll_expandWith`: one replacement expands one specifier when it
  finds as many pairs as the path has specifiers.
- Theorem {lit}`expandSpecifiers_onePass`: three replacements are one pass in that case,
  and only then when the inserted values have no percent sign.
-/

namespace Wintermute

open Foundation

/-! ## What the doctor knows of its process -/

/-- The environment variables of the process and the text of its status file. -/
structure ProcessEnv where
  var : Str → Option Str
  procStatus : Option Str

/-- A number of 32 bits in decimal digits, an optional plus sign in front. -/
def parseU32 (s : Str) : Option UInt32 :=
  let digits := (stripPrefix ['+'] s).getD s
  if digits.isEmpty || !digits.all Char.isDigit then none
  else
    let n := Nat.ofDigitChars 10 digits 0
    if n < 2 ^ 32 then some (UInt32.ofNat n) else none

/-- The user id in the status file of the process, zero as a fallback. -/
def readUidFromProc (env : ProcessEnv) : UInt32 :=
  match env.procStatus with
  | none => 0
  | some text =>
      ((lines text).findSome? fun line => do
        let rest ← stripPrefix "Uid:".toList line
        let uidStr ← firstWord isWhitespace rest
        parseU32 uidStr).getD 0

/-- The home directory that stands for {lit}`%h`. -/
def homeValue (env : ProcessEnv) (homeOverride : Option Str) : Str :=
  homeOverride.getD ((env.var "HOME".toList).getD "/root".toList)

/-- The user name that stands for {lit}`%u`. -/
def userValue (env : ProcessEnv) (userOverride : Option Str) : Str :=
  userOverride.getD ((env.var "USER".toList).getD "root".toList)

/-- The user id that stands for {lit}`%U`. -/
def uidValue (env : ProcessEnv) (uidOverride : Option UInt32) : UInt32 :=
  uidOverride.getD (((env.var "UID".toList).bind parseU32).getD (readUidFromProc env))

/-- The decimal digits of a user id. -/
def uidText (uid : UInt32) : Str :=
  Nat.toDigits 10 uid.toNat

/-- Expand the specifiers that affect paths. -/
def expandSpecifiers (env : ProcessEnv) (raw : Str) (homeOverride userOverride : Option Str)
    (uidOverride : Option UInt32) : Str :=
  let home := homeValue env homeOverride
  let user := userValue env userOverride
  let uid := uidValue env uidOverride
  replaceAll ['%', 'U'] (uidText uid)
    (replaceAll ['%', 'u'] user (replaceAll ['%', 'h'] home raw))

/-! ## One pass -/

/-- A piece of a path: a percent sign with the character behind it, or one character. -/
inductive Token
  | specifier (c : Char)
  | plain (c : Char)
  deriving DecidableEq, Repr

/-- The path read once from left to right. -/
def tokens : Str → List Token
  | [] => []
  | [c] => [.plain c]
  | c :: d :: rest =>
      if c = '%' then .specifier d :: tokens rest else .plain c :: tokens (d :: rest)

/-- A specifier of the table is replaced, everything else is copied. -/
def expandToken (table : List (Char × Str)) : Token → Str
  | .specifier c => (table.lookup c).getD ['%', c]
  | .plain c => [c]

/-- The path with the specifiers of a table expanded. -/
def expandWith (table : List (Char × Str)) (raw : Str) : Str :=
  (tokens raw).flatMap (expandToken table)

/-- The single pass: inserted values are not read again. -/
def expandOnce (raw home user : Str) (uid : UInt32) : Str :=
  expandWith [('h', home), ('u', user), ('U', uidText uid)] raw

/-- How often a specifier stands in the path. -/
def specifierCount (s : Char) (raw : Str) : ℕ :=
  (tokens raw).count (.specifier s)

/-- No replacement finds a pair that is not a specifier of the path: not in the path
itself, nor after its home directories, nor after its user names are filled in. -/
structure Unmixed (raw home user : Str) : Prop where
  homePairs : pairCount '%' 'h' raw = specifierCount 'h' raw
  userPairs : pairCount '%' 'u' (expandWith [('h', home)] raw) = specifierCount 'u' raw
  uidPairs : pairCount '%' 'U' (expandWith [('h', home), ('u', user)] raw) = specifierCount 'U' raw

/-- Without a table the pass copies the path. -/
theorem expandWith_nil (raw : Str) : expandWith [] raw = raw := by
  induction raw using tokens.induct with
  | case1 => rfl
  | case2 c => rfl
  | case3 d rest ih =>
      rw [expandWith, tokens, if_pos rfl, List.flatMap_cons]
      exact congrArg (['%', d] ++ ·) ih
  | case4 c d rest hc ih =>
      rw [expandWith, tokens, if_neg hc, List.flatMap_cons]
      exact congrArg ([c] ++ ·) ih

/-! ## One replacement -/

section OneSpecifier

variable {table : List (Char × Str)} {s : Char}

/-- Every specifier outside of the table is a pair. -/
theorem count_le_pairCount (table : List (Char × Str)) (hs : s ≠ '%')
    (habsent : table.lookup s = none) (toks : List Token) (x : Str) :
    toks.count (.specifier s) ≤ pairCount '%' s (x ++ toks.flatMap (expandToken table)) := by
  induction toks generalizing x with
  | nil => exact Nat.zero_le _
  | cons tok toks ih =>
      rw [List.flatMap_cons]
      by_cases htok : tok = .specifier s
      · have hpair : expandToken table tok = ['%', s] := by simp [htok, expandToken, habsent]
        have hrest := ih []
        rw [List.nil_append] at hrest
        rw [hpair, htok, List.count_cons_self, List.cons_append, List.cons_append,
          List.nil_append, pairCount_between hs.symm]
        omega
      · rw [List.count_cons_of_ne htok, ← List.append_assoc]
        exact ih (x ++ expandToken table tok)

/-- A token that is not the specifier does not change when the specifier gets a value. -/
theorem expandToken_append_of_ne {tok : Token} (htok : tok ≠ .specifier s) (value : Str) :
    expandToken (table ++ [(s, value)]) tok = expandToken table tok := by
  cases tok with
  | plain c => rfl
  | specifier c =>
      have hc : (c == s) = false := by simpa using htok
      have hnone : List.lookup c [(s, value)] = none := by simp [List.lookup_cons, hc]
      rw [expandToken, expandToken, List.lookup_append, hnone, Option.or_none]

/-- The specifier gets its value. -/
theorem expandToken_append_self (habsent : table.lookup s = none) (value : Str) :
    expandToken (table ++ [(s, value)]) (.specifier s) = value := by
  have hsome : List.lookup s [(s, value)] = some value :=
    List.lookup_cons_self
  rw [expandToken, List.lookup_append, habsent, hsome, Option.none_or, Option.getD_some]

/-- A replacement that finds as many pairs as there are specifiers replaces just them. -/
theorem replaceAll_tokens (hs : s ≠ '%') (habsent : table.lookup s = none) (value : Str)
    (toks : List Token) (x : Str)
    (hcount : pairCount '%' s (x ++ toks.flatMap (expandToken table)) =
      toks.count (.specifier s)) :
    replaceAll ['%', s] value (x ++ toks.flatMap (expandToken table)) =
      x ++ toks.flatMap (expandToken (table ++ [(s, value)])) := by
  -- the front of the text that holds no specifier yet is carried along
  induction toks generalizing x with
  | nil =>
      rw [List.flatMap_nil, List.append_nil] at hcount ⊢
      rw [replaceAll_of_pairCount_eq_zero value hcount, List.flatMap_nil, List.append_nil]
  | cons tok toks ih =>
      rw [List.flatMap_cons] at hcount ⊢
      by_cases htok : tok = .specifier s
      · have hpair : expandToken table tok = ['%', s] := by simp [htok, expandToken, habsent]
        have hle := count_le_pairCount table hs habsent toks []
        have hrest := ih []
        simp only [List.nil_append] at hle hrest
        rw [hpair, List.cons_append, List.cons_append, List.nil_append] at hcount ⊢
        rw [pairCount_between hs.symm, htok, List.count_cons_self] at hcount
        rw [replaceAll_between hs.symm value _ (by omega), hrest (by omega), List.flatMap_cons,
          htok, expandToken_append_self habsent]
      · rw [← List.append_assoc, List.count_cons_of_ne htok] at hcount
        rw [← List.append_assoc, ih _ hcount, List.flatMap_cons, expandToken_append_of_ne htok,
          List.append_assoc]

/-- One replacement expands one specifier when it finds as many pairs as the path has
specifiers. -/
theorem replaceAll_expandWith (table : List (Char × Str)) (hs : s ≠ '%')
    (habsent : table.lookup s = none) (value : Str) {raw : Str}
    (hcount : pairCount '%' s (expandWith table raw) = specifierCount s raw) :
    replaceAll ['%', s] value (expandWith table raw) =
      expandWith (table ++ [(s, value)]) raw :=
  replaceAll_tokens hs habsent value (tokens raw) [] hcount

/-- A path has at least as many pairs as specifiers. -/
theorem specifierCount_le (hs : s ≠ '%') (raw : Str) :
    specifierCount s raw ≤ pairCount '%' s raw := by
  have hle := count_le_pairCount [] hs rfl (tokens raw) []
  have hraw : (tokens raw).flatMap (expandToken []) = raw := expandWith_nil raw
  rwa [List.nil_append, hraw] at hle

end OneSpecifier

/-! ## Three replacements -/

/-- Filling in a value without percent sign takes one of them away per specifier. -/
theorem count_expandWith_append (table : List (Char × Str)) {s : Char} {value : Str}
    (hs : s ≠ '%') (habsent : table.lookup s = none) (hvalue : '%' ∉ value) (raw : Str) :
    (expandWith (table ++ [(s, value)]) raw).count '%' + specifierCount s raw =
      (expandWith table raw).count '%' := by
  rw [expandWith, expandWith, specifierCount]
  induction tokens raw with
  | nil => rfl
  | cons tok toks ih =>
      rw [List.flatMap_cons, List.flatMap_cons, List.count_append, List.count_append]
      by_cases htok : tok = .specifier s
      · have hpair : expandToken table tok = ['%', s] := by simp [htok, expandToken, habsent]
        have hzero : value.count '%' = 0 := List.count_eq_zero.mpr hvalue
        have hone : List.count '%' ['%', s] = 1 := by simp [hs]
        rw [hpair, hone, htok, expandToken_append_self habsent, hzero, List.count_cons_self]
        omega
      · rw [expandToken_append_of_ne htok, List.count_cons_of_ne htok]
        omega

/-- The digits of a user id are no percent signs. -/
theorem percent_notMem_uidText (uid : UInt32) : '%' ∉ uidText uid := by
  intro hmem
  have hdigit := Nat.isDigit_of_mem_toDigits (b := 10) (by omega) (by omega) hmem
  exact absurd hdigit (by decide)

/-- The text after the first replacement. -/
theorem replaceAll_home {raw : Str} (home : Str)
    (hcount : pairCount '%' 'h' raw = specifierCount 'h' raw) :
    replaceAll ['%', 'h'] home raw = expandWith [('h', home)] raw := by
  have hempty : pairCount '%' 'h' (expandWith [] raw) = specifierCount 'h' raw := by
    rw [expandWith_nil, hcount]
  have hstep := replaceAll_expandWith [] (by decide) rfl home hempty
  rwa [expandWith_nil] at hstep

/-- The text after the first two replacements. -/
theorem replaceAll_home_user {raw home : Str} (user : Str)
    (hhome : pairCount '%' 'h' raw = specifierCount 'h' raw)
    (huser : pairCount '%' 'u' (expandWith [('h', home)] raw) = specifierCount 'u' raw) :
    replaceAll ['%', 'u'] user (replaceAll ['%', 'h'] home raw) =
      expandWith [('h', home), ('u', user)] raw := by
  rw [replaceAll_home home hhome]
  exact replaceAll_expandWith [('h', home)] (by decide) rfl user huser

/-- Without mixed pairs the three replacements are one pass. -/
theorem replaceAll_eq_expandOnce {raw home user : Str} (h : Unmixed raw home user)
    (uid : UInt32) :
    replaceAll ['%', 'U'] (uidText uid)
        (replaceAll ['%', 'u'] user (replaceAll ['%', 'h'] home raw)) =
      expandOnce raw home user uid := by
  rw [replaceAll_home_user user h.homePairs h.userPairs]
  exact replaceAll_expandWith [('h', home), ('u', user)] (by decide) rfl (uidText uid) h.uidPairs

/-- When the values have no percent sign, three replacements that are one pass found no
mixed pair: every further pair would have cost one more percent sign. -/
theorem unmixed_of_eq {raw home user : Str} {uid : UInt32} (hhome : '%' ∉ home)
    (huser : '%' ∉ user)
    (heq : replaceAll ['%', 'U'] (uidText uid)
        (replaceAll ['%', 'u'] user (replaceAll ['%', 'h'] home raw)) =
      expandOnce raw home user uid) :
    Unmixed raw home user := by
  have huid := percent_notMem_uidText uid
  have hcode₁ := count_replaceAll (b := 'h') (by decide) hhome raw
  have hcode₂ := count_replaceAll (b := 'u') (by decide) huser (replaceAll ['%', 'h'] home raw)
  have hcode₃ := count_replaceAll (b := 'U') (by decide) huid
    (replaceAll ['%', 'u'] user (replaceAll ['%', 'h'] home raw))
  have hpass₁ := count_expandWith_append [] (s := 'h') (by decide) rfl hhome raw
  have hpass₂ := count_expandWith_append [('h', home)] (s := 'u') (by decide) rfl huser raw
  have hpass₃ := count_expandWith_append [('h', home), ('u', user)] (s := 'U') (by decide) rfl
    huid raw
  rw [expandWith_nil] at hpass₁
  rw [heq] at hcode₃
  -- no replacement takes a pair of a later one away
  have hle₁ := specifierCount_le (s := 'h') (by decide) raw
  have hle₂ := (specifierCount_le (s := 'u') (by decide) raw).trans
    (pairCount_le_replaceAll (b := 'h') (by decide) (by decide) (by decide) home raw)
  have hle₃ := ((specifierCount_le (s := 'U') (by decide) raw).trans
    (pairCount_le_replaceAll (b := 'h') (by decide) (by decide) (by decide) home raw)).trans
    (pairCount_le_replaceAll (b := 'u') (by decide) (by decide) (by decide) user
      (replaceAll ['%', 'h'] home raw))
  simp only [List.nil_append, List.cons_append, expandOnce] at hcode₃ hpass₁ hpass₂ hpass₃
  have hfirst : pairCount '%' 'h' raw = specifierCount 'h' raw := by omega
  have hone := replaceAll_home home hfirst
  have hsecond : pairCount '%' 'u' (expandWith [('h', home)] raw) = specifierCount 'u' raw := by
    rw [← hone]
    omega
  refine ⟨hfirst, hsecond, ?_⟩
  rw [← replaceAll_home_user user hfirst hsecond]
  omega

/-- Specifier expansion is the single pass when no replacement finds a mixed pair, and
only then when the inserted values have no percent sign. -/
theorem expandSpecifiers_onePass (env : ProcessEnv) (raw : Str)
    (homeOverride userOverride : Option Str) (uidOverride : Option UInt32) :
    (Unmixed raw (homeValue env homeOverride) (userValue env userOverride) →
      expandSpecifiers env raw homeOverride userOverride uidOverride =
        expandOnce raw (homeValue env homeOverride) (userValue env userOverride)
          (uidValue env uidOverride)) ∧
    ('%' ∉ homeValue env homeOverride → '%' ∉ userValue env userOverride →
      expandSpecifiers env raw homeOverride userOverride uidOverride =
        expandOnce raw (homeValue env homeOverride) (userValue env userOverride)
          (uidValue env uidOverride) →
      Unmixed raw (homeValue env homeOverride) (userValue env userOverride)) :=
  ⟨fun h => replaceAll_eq_expandOnce h _, fun hhome huser => unmixed_of_eq hhome huser⟩

/-- A path with every specifier and an escaped percent sign. -/
def everySpecifier : Str :=
  "%h/.cache/%U/%u/100%%/run".toList

/-- A process without environment. -/
def bareProcess : ProcessEnv where
  var := fun _ => none
  procStatus := none

theorem expandSpecifiers_onePass_everySpecifier :
    expandSpecifiers bareProcess everySpecifier (some "/home/ada".toList) (some "ada".toList)
        (some 1000) = "/home/ada/.cache/1000/ada/100%%/run".toList ∧
    Unmixed everySpecifier "/home/ada".toList "ada".toList := by
  have hunmixed : Unmixed everySpecifier "/home/ada".toList "ada".toList := by
    constructor <;> decide
  have hpass := expandSpecifiers_onePass bareProcess everySpecifier (some "/home/ada".toList)
    (some "ada".toList) (some 1000)
  have hexpanded := hpass.1 hunmixed
  exact ⟨hexpanded.trans (by decide), hpass.2 (by decide) (by decide) hexpanded⟩

/-- An escaped percent sign in front of a letter is taken for a specifier, and so is what
a home directory brings along. -/
theorem expandSpecifiers_not_onePass :
    expandSpecifiers bareProcess "/opt/100%%hot/run".toList (some "/home/ada".toList)
        (some "ada".toList) (some 1000) = "/opt/100%/home/adaot/run".toList ∧
    expandOnce "/opt/100%%hot/run".toList "/home/ada".toList "ada".toList 1000 =
      "/opt/100%%hot/run".toList ∧
    expandSpecifiers bareProcess "%h/run".toList (some "/srv/%u".toList) (some "ada".toList)
        (some 1000) ≠ expandOnce "%h/run".toList "/srv/%u".toList "ada".toList 1000 := by
  decide

end Wintermute
