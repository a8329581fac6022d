import Mathlib.Data.List.Basic
import Mathlib.Tactic

/-!
# Segments of a terminated sequence

A stream or a text is a sequence of segments, each ended by a separator; the last
segment may lack its separator.  Readers cut the sequence after every separator,
editors change the segments one by one and keep the separators.

Main results:

- Theorem {lit}`segments_induction`: every sequence is empty, one unterminated
  segment, or a segment, its separator and a shorter sequence.
- Theorem {lit}`segments_mapSegments`: editing every segment edits the list of
  segments and nothing else.
- Theorem {lit}`mapSegments_eq_iff`: two edits agree on a sequence exactly when
  they agree on each of its segments.
-/

namespace Foundation

variable {α : Type*} [DecidableEq α]

/-! ## Cutting after every separator -/

/-- The pieces of a sequence, each with its separator; a last piece without
separator is present only when it is nonempty. -/
def splitInclusive (sep : α) : List α → List (List α)
  | [] => []
  | a :: as =>
      if a = sep then
        [a] :: splitInclusive sep as
      else
        match splitInclusive sep as with
        | [] => [[a]]
        | piece :: pieces => (a :: piece) :: pieces

/-- A piece without the separator at its end. -/
def dropSeparator (sep : α) (piece : List α) : List α :=
  if piece.getLast? = some sep then piece.dropLast else piece

/-- The segments of a sequence, without their separators. -/
def segments (sep : α) (l : List α) : List (List α) :=
  (splitInclusive sep l).map (dropSeparator sep)

/-- The sequence ends with a separator. -/
def terminated (sep : α) (l : List α) : Bool :=
  l.getLast? == some sep

/-- Every sequence is empty, one unterminated segment, or a segment, its separator
and a shorter sequence. -/
theorem segments_induction {motive : List α → Prop} (sep : α) (nil : motive [])
    (last : ∀ p, p ≠ [] → sep ∉ p → motive p)
    (cons : ∀ p rest, sep ∉ p → motive rest → motive (p ++ sep :: rest)) :
    ∀ l, motive l := by
  intro l
  by_cases hsep : sep ∈ l
  · obtain ⟨p, rest, hl, hp⟩ := List.eq_append_cons_of_mem hsep
    have hlt : rest.length < l.length := by
      rw [hl, List.length_append, List.length_cons]
      omega
    rw [hl]
    exact cons p rest hp (segments_induction sep nil last cons rest)
  · by_cases hl : l = []
    · rw [hl]
      exact nil
    · exact last l hl hsep
termination_by l => l.length

@[simp] theorem splitInclusive_nil (sep : α) : splitInclusive sep [] = [] := rfl

/-- A nonempty sequence without separator is one piece. -/
theorem splitInclusive_last {sep : α} {p : List α} (hne : p ≠ []) (hp : sep ∉ p) :
    splitInclusive sep p = [p] := by
  induction p with
  | nil => exact absurd rfl hne
  | cons a as ih =>
      rw [List.mem_cons, not_or] at hp
      obtain ⟨ha, has⟩ := hp
      rw [splitInclusive, if_neg (Ne.symm ha)]
      by_cases hnil : as = []
      · rw [hnil, splitInclusive_nil]
      · rw [ih hnil has]

/-- The first piece ends at the first separator. -/
theorem splitInclusive_cons {sep : α} {p : List α} (hp : sep ∉ p) (rest : List α) :
    splitInclusive sep (p ++ sep :: rest) = (p ++ [sep]) :: splitInclusive sep rest := by
  induction p with
  | nil => rw [List.nil_append, splitInclusive, if_pos rfl, List.nil_append]
  | cons a as ih =>
      rw [List.mem_cons, not_or] at hp
      obtain ⟨ha, has⟩ := hp
      rw [List.cons_append, splitInclusive, if_neg (Ne.symm ha), ih has]
      rfl

/-- The first piece is cut after the first separator, or is all there is. -/
theorem splitInclusive_head {sep : α} {l piece : List α} {pieces : List (List α)}
    (h : splitInclusive sep l = piece :: pieces) :
    (∃ p rest, sep ∉ p ∧ piece = p ++ [sep] ∧ l = piece ++ rest ∧
      pieces = splitInclusive sep rest) ∨ sep ∉ piece ∧ l = piece ∧ pieces = [] := by
  induction l using segments_induction sep with
  | nil => cases h
  | last p hne hp =>
      rw [splitInclusive_last hne hp, List.cons.injEq] at h
      obtain ⟨rfl, rfl⟩ := h
      exact Or.inr ⟨hp, rfl, rfl⟩
  | cons p rest hp _ =>
      rw [splitInclusive_cons hp, List.cons.injEq] at h
      obtain ⟨rfl, rfl⟩ := h
      exact Or.inl ⟨p, rest, hp, rfl, by simp, rfl⟩

/-- Whole segments in front of a sequence are its first pieces. -/
theorem splitInclusive_flatten {sep : α} {pieces : List (List α)}
    (h : ∀ piece ∈ pieces, ∃ p, sep ∉ p ∧ piece = p ++ [sep]) (rest : List α) :
    splitInclusive sep (pieces.flatten ++ rest) = pieces ++ splitInclusive sep rest := by
  induction pieces with
  | nil => rfl
  | cons piece pieces ih =>
      rw [List.forall_mem_cons] at h
      obtain ⟨⟨p, hp, rfl⟩, hrest⟩ := h
      have hcut : ((p ++ [sep]) :: pieces).flatten ++ rest =
          p ++ sep :: (pieces.flatten ++ rest) := by simp
      rw [hcut, splitInclusive_cons hp, ih hrest]
      rfl

@[simp] theorem dropSeparator_of_notMem {sep : α} {p : List α} (hp : sep ∉ p) :
    dropSeparator sep p = p :=
  if_neg fun h => hp (List.mem_of_getLast? h)

@[simp] theorem dropSeparator_append (sep : α) (p : List α) :
    dropSeparator sep (p ++ [sep]) = p := by
  simp [dropSeparator]

theorem notMem_dropSeparator {sep a : α} {p : List α} (hp : a ∉ p) :
    a ∉ dropSeparator sep p := by
  rw [dropSeparator]
  split
  · exact fun hmem => hp (List.mem_of_mem_dropLast hmem)
  · exact hp

@[simp] theorem segments_nil (sep : α) : segments sep [] = [] := rfl

theorem segments_last {sep : α} {p : List α} (hne : p ≠ []) (hp : sep ∉ p) :
    segments sep p = [p] := by
  rw [segments, splitInclusive_last hne hp, List.map_singleton, dropSeparator_of_notMem hp]

theorem segments_cons {sep : α} {p : List α} (hp : sep ∉ p) (rest : List α) :
    segments sep (p ++ sep :: rest) = p :: segments sep rest := by
  rw [segments, splitInclusive_cons hp, List.map_cons, dropSeparator_append, segments]

/-- No segment contains the separator. -/
theorem notMem_of_mem_segments {sep : α} {l p : List α} (hp : p ∈ segments sep l) :
    sep ∉ p := by
  induction l using segments_induction sep with
  | nil => cases hp
  | last q hne hq =>
      rw [segments_last hne hq, List.mem_singleton] at hp
      rwa [hp]
  | cons q rest hq ih =>
      rw [segments_cons hq, List.mem_cons] at hp
      rcases hp with rfl | hp
      · exact hq
      · exact ih hp

/-- A symbol missing from a sequence is missing from its segments. -/
theorem notMem_segments {sep a : α} {l : List α} (hl : a ∉ l) :
    ∀ p ∈ segments sep l, a ∉ p := by
  induction l using segments_induction sep with
  | nil => exact fun _ hp => absurd hp List.not_mem_nil
  | last q hne hq =>
      rw [segments_last hne hq]
      exact List.forall_mem_singleton.mpr hl
  | cons q rest hq ih =>
      rw [List.mem_append, List.mem_cons, not_or, not_or] at hl
      rw [segments_cons hq]
      exact List.forall_mem_cons.mpr ⟨hl.1, ih hl.2.2⟩

/-- Pieces without separators are the segments of the sequence they make when each is
closed with a separator. -/
theorem segments_flatMap {sep : α} {pieces : List (List α)} (hpieces : ∀ p ∈ pieces, sep ∉ p) :
    segments sep (pieces.flatMap fun p => p ++ [sep]) = pieces := by
  induction pieces with
  | nil => rfl
  | cons p pieces ih =>
      rw [List.forall_mem_cons] at hpieces
      rw [List.flatMap_cons, List.append_assoc, List.singleton_append, segments_cons hpieces.1,
        ih hpieces.2]

theorem segments_eq_nil_iff {sep : α} {l : List α} : segments sep l = [] ↔ l = [] := by
  induction l using segments_induction sep with
  | nil => simp
  | last p hne hp => simp [segments_last hne hp, hne]
  | cons p rest hp _ => simp [segments_cons hp]

@[simp] theorem terminated_nil (sep : α) : terminated sep [] = false := rfl

theorem terminated_last {sep : α} {p : List α} (hp : sep ∉ p) : terminated sep p = false := by
  rw [terminated, beq_eq_false_iff_ne]
  exact fun h => hp (List.mem_of_getLast? h)

/-- A cut after a separator leaves the end of the rest in sight. -/
theorem terminated_cons {sep : α} (p rest : List α) :
    terminated sep (p ++ sep :: rest) = (rest.isEmpty || terminated sep rest) := by
  cases rest with
  | nil => simp [terminated]
  | cons a as => simp [terminated, List.getLast?_append]

/-! ## Editing segment by segment -/

/-- Join segments with the separator, and put one more at the end if {lit}`closed`. -/
def joinSegments (sep : α) (pieces : List (List α)) (closed : Bool) : List α :=
  [sep].intercalate pieces ++ if closed then [sep] else []

omit [DecidableEq α] in
/-- A symbol missing from the separator and from the pieces is missing from their join. -/
theorem notMem_intercalate {a : α} {separator : List α} (hseparator : a ∉ separator)
    {pieces : List (List α)} (hpieces : ∀ p ∈ pieces, a ∉ p) :
    a ∉ separator.intercalate pieces := by
  induction pieces with
  | nil => exact List.not_mem_nil
  | cons p pieces ih =>
      rw [List.forall_mem_cons] at hpieces
      cases pieces with
      | nil => simpa using hpieces.1
      | cons q pieces => simp [List.intercalate_cons_cons, hpieces.1, hseparator, ih hpieces.2]

/-- Edit every segment; the separators stay. -/
def mapSegments (sep : α) (f : List α → List α) (l : List α) : List α :=
  joinSegments sep ((segments sep l).map f) (terminated sep l)

/-- Joining the segments of a sequence behind another segment. -/
theorem joinSegments_cons {sep : α} {pieces : List (List α)} {l : List α}
    (hnil : pieces = [] ↔ l = []) (p : List α) :
    joinSegments sep (p :: pieces) (l.isEmpty || terminated sep l) =
      p ++ sep :: joinSegments sep pieces (terminated sep l) := by
  cases pieces with
  | nil =>
      rw [hnil.mp rfl]
      simp [joinSegments]
  | cons q qs =>
      have hne : l.isEmpty = false := by
        rw [List.isEmpty_eq_false_iff]
        exact fun h => List.cons_ne_nil q qs (hnil.mpr h)
      simp [joinSegments, hne, List.intercalate_cons_cons]

@[simp] theorem mapSegments_nil (sep : α) (f : List α → List α) :
    mapSegments sep f [] = [] := rfl

theorem mapSegments_last {sep : α} (f : List α → List α) {p : List α} (hne : p ≠ [])
    (hp : sep ∉ p) : mapSegments sep f p = f p := by
  simp [mapSegments, joinSegments, segments_last hne hp, terminated_last hp]

/-- The first segment is edited in place. -/
theorem mapSegments_cons {sep : α} (f : List α → List α) {p : List α} (hp : sep ∉ p)
    (rest : List α) :
    mapSegments sep f (p ++ sep :: rest) = f p ++ sep :: mapSegments sep f rest := by
  have hnil : (segments sep rest).map f = [] ↔ rest = [] := by
    rw [List.map_eq_nil_iff, segments_eq_nil_iff]
  rw [mapSegments, mapSegments, segments_cons hp, terminated_cons, List.map_cons,
    joinSegments_cons hnil]

section Edit

variable {sep : α} {f : List α → List α}

/-- An edit that introduces a symbol into no segment introduces it nowhere. -/
theorem notMem_mapSegments {a : α} (hne : a ≠ sep) {l : List α}
    (hf : ∀ p ∈ segments sep l, a ∉ f p) : a ∉ mapSegments sep f l := by
  induction l using segments_induction sep with
  | nil => exact List.not_mem_nil
  | last p hpne hp =>
      rw [segments_last hpne hp, List.forall_mem_singleton] at hf
      rwa [mapSegments_last f hpne hp]
  | cons p rest hp ih =>
      rw [segments_cons hp, List.forall_mem_cons] at hf
      rw [mapSegments_cons f hp, List.mem_append, List.mem_cons, not_or, not_or]
      exact ⟨hf.1, hne, ih hf.2⟩

/-- An edit that introduces no separator and empties no segment keeps the cuts: the
segments of the result are the edited segments. -/
theorem segments_mapSegments {l : List α} (hsep : ∀ p ∈ segments sep l, sep ∉ f p)
    (hne : ∀ p ∈ segments sep l, p ≠ [] → f p ≠ []) :
    segments sep (mapSegments sep f l) = (segments sep l).map f := by
  induction l using segments_induction sep with
  | nil => rfl
  | last p hpne hp =>
      rw [segments_last hpne hp, List.forall_mem_singleton] at hsep hne
      rw [mapSegments_last f hpne hp, segments_last hpne hp, segments_last (hne hpne) hsep,
        List.map_singleton]
  | cons p rest hp ih =>
      rw [segments_cons hp, List.forall_mem_cons] at hsep hne
      rw [mapSegments_cons f hp, segments_cons hsep.1, ih hsep.2 hne.2, segments_cons hp,
        List.map_cons]

/-- Such an edit keeps the separator at the end, or its absence. -/
theorem terminated_mapSegments {l : List α} (hsep : ∀ p ∈ segments sep l, sep ∉ f p)
    (hne : ∀ p ∈ segments sep l, p ≠ [] → f p ≠ []) :
    terminated sep (mapSegments sep f l) = terminated sep l := by
  induction l using segments_induction sep with
  | nil => rfl
  | last p hpne hp =>
      rw [segments_last hpne hp, List.forall_mem_singleton] at hsep
      rw [mapSegments_last f hpne hp, terminated_last hsep, terminated_last hp]
  | cons p rest hp ih =>
      rw [segments_cons hp, List.forall_mem_cons] at hsep hne
      have hempty : (mapSegments sep f rest).isEmpty = rest.isEmpty := by
        have hsegs := segments_mapSegments hsep.2 hne.2
        cases rest with
        | nil => rfl
        | cons a as =>
            rw [List.isEmpty_cons, List.isEmpty_eq_false_iff]
            intro hnil
            rw [hnil, segments_nil, eq_comm, List.map_eq_nil_iff, segments_eq_nil_iff] at hsegs
            cases hsegs
      rw [mapSegments_cons f hp, terminated_cons, terminated_cons, ih hsep.2 hne.2, hempty]

/-- An edit that does nothing to its own results does nothing to an edited sequence. -/
theorem mapSegments_idem {l : List α} (hsep : ∀ p ∈ segments sep l, sep ∉ f p)
    (hne : ∀ p ∈ segments sep l, p ≠ [] → f p ≠ []) (hf : ∀ p ∈ segments sep l, f (f p) = f p) :
    mapSegments sep f (mapSegments sep f l) = mapSegments sep f l := by
  have htwice : ((segments sep l).map f).map f = (segments sep l).map f := by
    rw [List.map_map]
    exact List.map_congr_left hf
  rw [mapSegments, segments_mapSegments hsep hne, terminated_mapSegments hsep hne, htwice,
    mapSegments]

/-- Two edits that introduce no separator agree on a sequence exactly when they agree
on each of its segments. -/
theorem mapSegments_eq_iff {g : List α → List α} {l : List α}
    (hf : ∀ p ∈ segments sep l, sep ∉ f p) (hg : ∀ p ∈ segments sep l, sep ∉ g p) :
    mapSegments sep f l = mapSegments sep g l ↔ ∀ p ∈ segments sep l, f p = g p := by
  induction l using segments_induction sep with
  | nil => simp
  | last p hne hp => simp [mapSegments_last _ hne hp, segments_last hne hp]
  | cons p rest hp ih =>
      rw [segments_cons hp, List.forall_mem_cons] at hf hg
      rw [mapSegments_cons f hp, mapSegments_cons g hp, segments_cons hp, List.forall_mem_cons,
        ← ih hf.2 hg.2]
      constructor
      · intro heq
        have hcut := congrArg (segments sep) heq
        rw [segments_cons hf.1, segments_cons hg.1, List.cons.injEq] at hcut
        refine ⟨hcut.1, ?_⟩
        rw [hcut.1] at heq
        exact List.cons_inj_right sep |>.mp (List.append_cancel_left heq)
      · rintro ⟨hhead, htail⟩
        rw [hhead, htail]

end Edit

end Foundation
