import Wintermute.Foundation.Segments
import Wintermute.Foundation.Words

/-!
# Texts and their lines

The string operations of the platform over texts as sequences of Unicode scalar
values: white space, trimming, and lines, which end in a line feed or in a carriage
return and a line feed.

Main results:

- Theorem {lit}`lines_of_noCr`: without carriage returns the lines of a text are its
  segments.
- Theorem {lit}`lines_cons`: the first line ends at the first line feed.
-/

namespace Wintermute

open Foundation

/-- A text as its sequence of Unicode scalar values. -/
abbrev Str := List Char

/-! ## White space -/

/-- The Unicode property White_Space. -/
def isWhitespace (c : Char) : Bool :=
  (0x09 ≤ c.toNat && c.toNat ≤ 0x0D) || c.toNat == 0x20 || c.toNat == 0x85 ||
    c.toNat == 0xA0 || c.toNat == 0x1680 || (0x2000 ≤ c.toNat && c.toNat ≤ 0x200A) ||
    c.toNat == 0x2028 || c.toNat == 0x2029 || c.toNat == 0x202F || c.toNat == 0x205F ||
    c.toNat == 0x3000

/-- The text without the white space at either end. -/
def trim (s : Str) : Str :=
  trimEndMatches isWhitespace (trimStartMatches isWhitespace s)

/-- White space at the end is trimmed with the rest. -/
theorem trim_append_blank {s blank : Str} (hblank : ∀ c ∈ blank, isWhitespace c = true) :
    trim (s ++ blank) = trim s := by
  rw [trim, trim, trimStartMatches, trimStartMatches, List.dropWhile_append]
  split_ifs with hempty
  · rw [List.isEmpty_iff.mp hempty, List.dropWhile_eq_nil_iff.mpr hblank]
  · exact trimEndMatches_append hblank

/-- Trimming with another notion of white space that agrees on the text. -/
theorem trim_congr {blank : Char → Bool} {s : Str} (hs : ∀ c ∈ s, blank c = isWhitespace c) :
    trimEndMatches blank (trimStartMatches blank s) = trim s := by
  rw [trim, trimStartMatches_congr hs]
  exact trimEndMatches_congr fun c hc => hs c (mem_of_mem_trimStartMatches hc)

/-- A first character that is not white space stays. -/
theorem head_trim_cons {c : Char} (hc : isWhitespace c = false) (s : Str) :
    (trim (c :: s)).head? = some c := by
  have hstart : trimStartMatches isWhitespace (c :: s) = [] ++ [c] ++ s :=
    List.dropWhile_cons_of_neg (by simp [hc])
  rw [trim, hstart, trimEndMatches_front hc]
  rfl

theorem mem_of_mem_trim {c : Char} {s : Str} (hc : c ∈ trim s) : c ∈ s :=
  mem_of_mem_trimStartMatches (mem_of_mem_trimEndMatches hc)

/-- The words of a text. -/
def splitWhitespace (s : Str) : List Str :=
  (s.splitOnP isWhitespace).filter fun word => !word.isEmpty

/-! ## Lines -/

/-- A piece without its line feed, nor a carriage return before it. -/
def lineContent (piece : Str) : Str :=
  if piece.getLast? = some '\n' then dropSeparator '\r' piece.dropLast else piece

/-- The lines of a text. -/
def lines (s : Str) : List Str :=
  (splitInclusive '\n' s).map lineContent

theorem lines_last {p : Str} (hne : p ≠ []) (hp : '\n' ∉ p) : lines p = [p] := by
  have hlast : ¬ p.getLast? = some '\n' := fun h => hp (List.mem_of_getLast? h)
  rw [lines, splitInclusive_last hne hp, List.map_singleton, lineContent, if_neg hlast]

/-- The first line ends at the first line feed. -/
theorem lines_cons {p : Str} (hp : '\n' ∉ p) (rest : Str) :
    lines (p ++ '\n' :: rest) = dropSeparator '\r' p :: lines rest := by
  rw [lines, splitInclusive_cons hp, List.map_cons, lines, lineContent]
  simp

theorem lines_eq_nil_iff {s : Str} : lines s = [] ↔ s = [] := by
  rw [lines, List.map_eq_nil_iff, ← @segments_eq_nil_iff _ _ '\n', segments,
    List.map_eq_nil_iff]

/-- A carriage return at the end is trimmed anyway. -/
theorem trim_dropSeparator_cr (s : Str) : trim (dropSeparator '\r' s) = trim s := by
  rw [dropSeparator]
  split_ifs with hlast
  · obtain ⟨front, rfl⟩ := List.getLast?_eq_some_iff.mp hlast
    rw [List.dropLast_concat, trim_append_blank (List.forall_mem_singleton.mpr rfl)]
  · rfl

/-- Without carriage returns the lines of a text are its segments. -/
theorem lines_of_noCr {s : Str} (hcr : '\r' ∉ s) : lines s = segments '\n' s := by
  induction s using segments_induction '\n' with
  | nil => rfl
  | last p hne hp => rw [lines_last hne hp, segments_last hne hp]
  | cons p rest hp ih =>
      rw [List.mem_append, List.mem_cons, not_or, not_or] at hcr
      rw [lines_cons hp, segments_cons hp, dropSeparator_of_notMem hcr.1, ih hcr.2.2]

/-- A reader that does not see a carriage return at the end reads the lines of a text as
its segments. -/
theorem filterMap_lines {β : Type*} {f : Str → Option β}
    (hf : ∀ p, f (dropSeparator '\r' p) = f p) (s : Str) :
    (lines s).filterMap f = (segments '\n' s).filterMap f := by
  induction s using segments_induction '\n' with
  | nil => rfl
  | last p hne hp => rw [lines_last hne hp, segments_last hne hp]
  | cons p rest hp ih =>
      rw [lines_cons hp, segments_cons hp, List.filterMap_cons, List.filterMap_cons, hf, ih]

/-! ## Reading files -/

/-- Why a file was not read. -/
inductive ReadError where
  | notFound
  | other (text : String)
deriving DecidableEq, Repr

/-- What reading a path as a text answers. -/
abbrev FileReader := List UInt8 → Except ReadError Str

end Wintermute
