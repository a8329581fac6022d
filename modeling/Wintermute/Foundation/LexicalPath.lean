import Wintermute.Foundation.Segments

/-!
# Paths, read lexically

A path is a sequence of components between separators.  Joining a path to a directory
puts a separator between them, unless the path starts at the root: then it replaces the
directory.  A path is resolved by walking its components: a single dot stays, two dots
go up, and everything else goes down.

Main results:

- Theorem {lit}`resolve_join`: a relative path is followed from the directory it is
  joined to.
- Theorem {lit}`directlyInside_join_iff`: a joined path ends directly inside the
  directory exactly when what it climbs it enters again, and one name more.
-/

namespace Foundation

variable {α : Type*} [DecidableEq α]

/-! ## Joining -/

/-- The path starts at the root. -/
def isAbsolute (sep : α) (p : List α) : Bool :=
  p.head? == some sep

/-- The path joined to a directory. -/
def joinPath (sep : α) (dir p : List α) : List α :=
  if isAbsolute sep p then p
  else if dir = [] ∨ dir.getLast? = some sep then dir ++ p
  else dir ++ sep :: p

/-- The components of a path, without empty ones and without single dots. -/
def components (sep dot : α) (p : List α) : List (List α) :=
  (segments sep p).filter fun c => c ≠ [] ∧ c ≠ [dot]

section Components

variable {sep dot : α}

/-- The first separator cuts a path into the components of both sides. -/
theorem components_first_sep {p : List α} (hp : sep ∉ p) (rest : List α) :
    components sep dot (p ++ sep :: rest) =
      components sep dot p ++ components sep dot rest := by
  rw [components, components, components, segments_cons hp, List.filter_cons]
  by_cases hne : p = []
  · simp [hne]
  · rw [segments_last hne hp]
    by_cases hkeep : p ≠ [] ∧ p ≠ [dot] <;> simp [hkeep]

/-- A separator cuts a path into the components of both sides. -/
theorem components_append_sep (dir rest : List α) :
    components sep dot (dir ++ sep :: rest) =
      components sep dot dir ++ components sep dot rest := by
  induction dir using segments_induction sep with
  | nil => exact components_first_sep List.not_mem_nil rest
  | last p hne hp => exact components_first_sep hp rest
  | cons p dir hp ih =>
      rw [List.append_assoc, List.cons_append, components_first_sep hp, components_first_sep hp,
        ih, List.append_assoc]

/-- A joined relative path has the components of the directory and its own. -/
theorem components_joinPath {dir p : List α} (hp : isAbsolute sep p = false) :
    components sep dot (joinPath sep dir p) =
      components sep dot dir ++ components sep dot p := by
  rw [joinPath, if_neg (by rw [hp]; exact Bool.false_ne_true)]
  split_ifs with hdir
  · rcases hdir with rfl | hlast
    · rfl
    · obtain ⟨front, rfl⟩ := List.getLast?_eq_some_iff.mp hlast
      have hempty : components sep dot ([] : List α) = [] := rfl
      rw [List.append_assoc, List.singleton_append, components_append_sep,
        components_append_sep, hempty, List.append_nil]
  · exact components_append_sep dir p

theorem isAbsolute_joinPath {dir p : List α} (hp : isAbsolute sep p = false) :
    isAbsolute sep (joinPath sep dir p) = isAbsolute sep dir := by
  rw [joinPath, if_neg (by rw [hp]; exact Bool.false_ne_true)]
  cases dir with
  | nil => simpa [isAbsolute] using hp
  | cons a dir => split_ifs <;> rfl

end Components

/-! ## Resolving -/

/-- Where a path leads: at the root or not, so many directories up, then down. -/
@[ext]
structure Location (α : Type*) where
  absolute : Bool
  ups : ℕ
  names : List (List α)
deriving DecidableEq

/-- Follow one component.  There is nothing above the root. -/
def Location.enter (dot : α) (loc : Location α) (c : List α) : Location α :=
  if c = [dot, dot] then
    if loc.names = [] then
      if loc.absolute then loc else { loc with ups := loc.ups + 1 }
    else { loc with names := loc.names.dropLast }
  else { loc with names := loc.names ++ [c] }

/-- Where a path leads, with its dots resolved. -/
def resolve (sep dot : α) (p : List α) : Location α :=
  (components sep dot p).foldl (Location.enter dot) ⟨isAbsolute sep p, 0, []⟩

/-- Where a relative location leads from a directory. -/
def Location.follow (dir loc : Location α) : Location α where
  absolute := dir.absolute
  ups := if dir.absolute then dir.ups else dir.ups + (loc.ups - dir.names.length)
  names := dir.names.take (dir.names.length - loc.ups) ++ loc.names

section Resolve

variable {sep dot : α}

omit [DecidableEq α] in
@[simp] theorem follow_start (dir : Location α) : dir.follow ⟨false, 0, []⟩ = dir := by
  simp [Location.follow]

/-- Following and then one component is following one component more. -/
theorem enter_follow (dir : Location α) {loc : Location α} (hloc : loc.absolute = false)
    (c : List α) :
    (dir.follow loc).enter dot c = dir.follow (loc.enter dot c) := by
  obtain ⟨absolute, ups, names⟩ := loc
  cases hloc
  by_cases hc : c = [dot, dot]
  · by_cases hnames : names = []
    · subst hnames
      by_cases htop : dir.names.length ≤ ups
      -- both walks are at the top of what they know
      · have htake : dir.names.length - ups = 0 := by omega
        have htake' : dir.names.length - (ups + 1) = 0 := by omega
        cases habs : dir.absolute with
        | true => simp [Location.enter, Location.follow, hc, htake, htake', habs]
        | false =>
            have hups : ups + 1 - dir.names.length = ups - dir.names.length + 1 := by omega
            simp [Location.enter, Location.follow, hc, htake, htake', habs, hups, Nat.add_assoc]
      -- the followed walk goes up inside the directory
      · have hne : dir.names.take (dir.names.length - ups) ≠ [] := by
          rw [ne_eq, List.take_eq_nil_iff, not_or]
          exact ⟨by omega, fun hnil => htop (by simp [hnil])⟩
        have hups : ups - dir.names.length = 0 := by omega
        have hups' : ups + 1 - dir.names.length = 0 := by omega
        have hdrop : (dir.names.take (dir.names.length - ups)).dropLast =
            dir.names.take (dir.names.length - (ups + 1)) := by
          have hle : dir.names.length - ups ≤ dir.names.length := Nat.sub_le _ _
          rw [List.dropLast_eq_take, List.take_take, List.length_take, Nat.min_eq_left hle,
            Nat.min_eq_left (Nat.sub_le _ _), Nat.sub_sub]
        simp [Location.enter, Location.follow, hc, hne, hups, hups', hdrop]
    · have hne : dir.names.take (dir.names.length - ups) ++ names ≠ [] :=
        List.append_ne_nil_of_right_ne_nil _ hnames
      have hdrop : (dir.names.take (dir.names.length - ups) ++ names).dropLast =
          dir.names.take (dir.names.length - ups) ++ names.dropLast :=
        List.dropLast_append_of_ne_nil hnames
      simp only [Location.enter, Location.follow, if_pos hc, if_neg hne, if_neg hnames, hdrop]
  · simp only [Location.enter, Location.follow, if_neg hc, List.append_assoc]

theorem enter_absolute (loc : Location α) (c : List α) :
    (loc.enter dot c).absolute = loc.absolute := by
  rw [Location.enter]
  split_ifs <;> rfl

theorem foldl_enter_absolute (cs : List (List α)) (loc : Location α) :
    (cs.foldl (Location.enter dot) loc).absolute = loc.absolute := by
  induction cs generalizing loc with
  | nil => rfl
  | cons c cs ih => rw [List.foldl_cons, ih, enter_absolute]

/-- Walking components from a directory is following where they lead on their own. -/
theorem foldl_enter_eq_follow (cs : List (List α)) (dir : Location α) :
    cs.foldl (Location.enter dot) dir =
      dir.follow (cs.foldl (Location.enter dot) ⟨false, 0, []⟩) := by
  induction cs using List.reverseRecOn with
  | nil => simp
  | append_singleton cs c ih =>
      rw [List.foldl_append, List.foldl_append, ih]
      exact enter_follow dir (foldl_enter_absolute cs _) c

@[simp] theorem resolve_absolute (p : List α) :
    (resolve sep dot p).absolute = isAbsolute sep p :=
  foldl_enter_absolute _ _

/-- Nothing is above the root. -/
theorem resolve_ups_of_absolute {p : List α} (hp : isAbsolute sep p = true) :
    (resolve sep dot p).ups = 0 := by
  have habs : (⟨isAbsolute sep p, 0, []⟩ : Location α).absolute = true := hp
  rw [resolve, foldl_enter_eq_follow, Location.follow, if_pos habs]

/-- A relative path is followed from the directory it is joined to. -/
theorem resolve_join {dir p : List α} (hp : isAbsolute sep p = false) :
    resolve sep dot (joinPath sep dir p) =
      (resolve sep dot dir).follow (resolve sep dot p) := by
  rw [resolve, components_joinPath hp, isAbsolute_joinPath hp, List.foldl_append,
    foldl_enter_eq_follow, resolve, resolve, hp]

theorem joinPath_of_absolute {dir p : List α} (hp : isAbsolute sep p = true) :
    joinPath sep dir p = p :=
  if_pos hp

/-! ## Directly inside a directory -/

/-- The path leads to one name inside the directory. -/
def DirectlyInside (sep dot : α) (dir p : List α) : Prop :=
  ∃ name, resolve sep dot p =
    { resolve sep dot dir with names := (resolve sep dot dir).names ++ [name] }

/-- What the path climbs it enters again, and one name more.  A path from the root
names the whole directory; a relative one the directories it left. -/
def StaysInside (sep dot : α) (dir p : List α) : Prop :=
  let d := resolve sep dot dir
  let q := resolve sep dot p
  if isAbsolute sep p then
    isAbsolute sep dir = true ∧ ∃ name, q.names = d.names ++ [name]
  else
    (isAbsolute sep dir = true ∨ q.ups ≤ d.names.length) ∧
      ∃ name, q.names = d.names.drop (d.names.length - q.ups) ++ [name]

/-- A joined path ends directly inside the directory exactly when what it climbs it
enters again, and one name more. -/
theorem directlyInside_join_iff (dir p : List α) :
    DirectlyInside sep dot dir (joinPath sep dir p) ↔ StaysInside sep dot dir p := by
  rw [DirectlyInside, StaysInside]
  cases hp : isAbsolute sep p with
  | true =>
      rw [joinPath_of_absolute hp, if_pos rfl]
      simp only [Location.ext_iff, resolve_absolute, hp, resolve_ups_of_absolute hp]
      constructor
      · rintro ⟨name, habs, -, hnames⟩
        exact ⟨habs.symm, name, hnames⟩
      · rintro ⟨hdir, name, hnames⟩
        exact ⟨name, hdir.symm, (resolve_ups_of_absolute hdir).symm, hnames⟩
  | false =>
      rw [resolve_join hp, if_neg Bool.false_ne_true]
      simp only [Location.ext_iff, Location.follow, true_and, resolve_absolute]
      have hcut := List.take_append_drop ((resolve sep dot dir).names.length -
        (resolve sep dot p).ups) (resolve sep dot dir).names
      have hnames : ∀ name, List.take ((resolve sep dot dir).names.length -
            (resolve sep dot p).ups) (resolve sep dot dir).names ++ (resolve sep dot p).names =
            (resolve sep dot dir).names ++ [name] ↔
          (resolve sep dot p).names = (resolve sep dot dir).names.drop
            ((resolve sep dot dir).names.length - (resolve sep dot p).ups) ++ [name] := by
        intro name
        conv_lhs =>
          rhs
          rw [← hcut, List.append_assoc]
        exact List.append_right_inj _
      simp only [hnames, exists_and_left]
      refine and_congr_left fun _ => ?_
      cases hdir : isAbsolute sep dir with
      | true => simp
      | false => simp [Nat.sub_eq_zero_iff_le]

/-- A path of one component, no dots, leads directly inside. -/
theorem staysInside_of_noSep {dir p : List α} (hne : p ≠ []) (hsep : sep ∉ p)
    (hdot : p ≠ [dot]) (hdots : p ≠ [dot, dot]) : StaysInside sep dot dir p := by
  have habs : isAbsolute sep p = false := by
    cases p with
    | nil => rfl
    | cons a p =>
        rw [List.mem_cons, not_or] at hsep
        simpa [isAbsolute] using Ne.symm hsep.1
  have hcomp : components sep dot p = [p] := by
    rw [components, segments_last hne hsep]
    simp [hne, hdot]
  have hresolve : resolve sep dot p = ⟨false, 0, [p]⟩ := by
    rw [resolve, hcomp, habs]
    simp [Location.enter, hdots]
  rw [StaysInside, habs, if_neg Bool.false_ne_true, hresolve]
  exact ⟨Or.inr (Nat.zero_le _), p, by simp⟩

end Resolve

end Foundation
