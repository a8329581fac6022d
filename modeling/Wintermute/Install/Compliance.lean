import Wintermute.Foundation.Occurrences
import Wintermute.Install.Convention

/-!
# Compliant units and the rewrite

The checker looks at the front of every {lit}`ExecStart=` value, the rewriter splits the
whole body and joins it again.  On a compliant body the rewriter changes two things: it
drops the carriage returns in front of line feeds, and a space at the end of a command
without arguments.

Main results:

- Theorem {lit}`rewriteExecStart_eq_self_iff`: which lines that pass the check are left
  alone.
- Theorem {lit}`rewriteUnitExecStarts_eq_self_iff`: which compliant bodies are.
-/

namespace Wintermute

open Foundation

/-! ## One line -/

/-- A line with a binary of the fleet directory, one space, and nothing else. -/
def TrailingSpace (line : Str) : Prop :=
  ∃ name, BinaryName name ∧ ' ' ∉ name ∧ line = execStart ++ (fleetDir ++ name ++ [' '])

/-- The rewriter drops the space. -/
theorem rewriteExecStart_trailingSpace {name : Str} (hname : BinaryName name)
    (hspace : ' ' ∉ name) :
    rewriteExecStart (execStart ++ (fleetDir ++ name ++ [' '])) =
      execStart ++ (fleetDir ++ name) := by
  have hpath : ' ' ∉ fleetDir ++ name := by
    rw [List.mem_append, not_or]
    exact ⟨by decide, hspace⟩
  have hread : extractBinaryName (beforeFirst ' ' (fleetDir ++ name ++ [' '])) = some name := by
    rw [beforeFirst_append hpath]
    exact extractBinaryName_eq_some_iff.mpr ⟨fleetDir, fleetDir_accepted, rfl, hname⟩
  rw [rewriteExecStart_of_name hread, afterFirst_append hpath]
  simp [spacedArgs]

/-- The system directories hold no binary of the fleet. -/
theorem extractBinaryName_system {dir : Str} (hdir : dir ∈ ["/bin/".toList, "/usr/bin/".toList])
    (rest : Str) : extractBinaryName (dir ++ rest) = none := by
  rw [Option.eq_none_iff_forall_ne_some]
  intro name hname
  obtain ⟨accepted, haccepted, hpath, -⟩ := extractBinaryName_eq_some_iff.mp hname
  -- two fronts of one path are comparable
  have hclash : ∀ front, front <+: accepted → ¬ (dir <+: front ∨ front <+: dir) → False := by
    intro front hfront hnot
    refine hnot (List.prefix_or_prefix_of_prefix (List.prefix_append dir rest) ?_)
    rw [hpath]
    exact hfront.trans (List.prefix_append _ _)
  simp only [List.mem_cons, List.not_mem_nil, or_false] at hdir
  cases haccepted with
  | usrLocal => rcases hdir with rfl | rfl <;> exact hclash _ List.prefix_rfl (by decide)
  | homeSpecifier hhome hsub =>
      simp only [List.mem_cons, List.not_mem_nil, or_false] at hhome
      rcases hhome with rfl | rfl <;> rcases hdir with rfl | rfl <;>
        exact hclash _ (List.prefix_append _ _) (by decide)
  | homeOf huser hsub =>
      rcases hdir with rfl | rfl <;>
        exact hclash "/home/".toList ⟨_, by rw [List.append_assoc]⟩ (by decide)

/-- A line that passes the check is rewritten only for its trailing space. -/
theorem rewriteExecStart_of_compliant {line : Str} (hline : offendingValue line = none) :
    rewriteExecStart line = line ∨ TrailingSpace line := by
  rcases rewriteExecStart_cases line with hsame | ⟨value, name, rfl, hname⟩
  · exact Or.inl hsame
  · rcases offendingValue_eq_none_iff.mp hline value rfl with
      ⟨rest, rfl⟩ | ⟨rest, rfl⟩ | ⟨rest, rfl⟩
    · rw [beforeFirst_front (by decide), extractBinaryName_system (by simp)] at hname
      cases hname
    · rw [beforeFirst_front (by decide), extractBinaryName_system (by simp)] at hname
      cases hname
    · have hfirst : beforeFirst ' ' (fleetDir ++ rest) = fleetDir ++ beforeFirst ' ' rest :=
        beforeFirst_front (by decide) rest
      obtain ⟨hbin, rfl⟩ : BinaryName (beforeFirst ' ' rest) ∧ beforeFirst ' ' rest = name := by
        rw [hfirst, extractBinaryName_append fleetDir_accepted] at hname
        split_ifs at hname with hbin
        exact ⟨hbin, Option.some.inj hname⟩
      rw [rewriteExecStart_of_name hname, ← hfirst, List.append_right_inj]
      by_cases hspace : fleetDir ++ rest = beforeFirst ' ' (fleetDir ++ rest) ++ [' ']
      · right
        refine ⟨beforeFirst ' ' rest, hbin, notMem_beforeFirst ' ' rest, ?_⟩
        rw [List.append_right_inj, ← hfirst]
        exact hspace
      · left
        exact ((eq_spacedArgs_iff (fleetDir ++ rest)).mpr hspace).symm

/-- A line that passes the check is left alone exactly when it has no trailing space. -/
theorem rewriteExecStart_eq_self_iff {line : Str} (hline : offendingValue line = none) :
    rewriteExecStart line = line ↔ ¬ TrailingSpace line := by
  constructor
  · rintro hsame ⟨name, hname, hspace, rfl⟩
    rw [rewriteExecStart_trailingSpace hname hspace] at hsame
    have hlength := congrArg List.length hsame
    simp at hlength
  · exact fun hnot => (rewriteExecStart_of_compliant hline).resolve_right hnot

/-- No line that passes the check is rewritten to a longer one. -/
theorem length_rewriteExecStart_le {line : Str} (hline : offendingValue line = none) :
    (rewriteExecStart line).length ≤ line.length := by
  rcases rewriteExecStart_of_compliant hline with hsame | ⟨name, hname, hspace, rfl⟩
  · rw [hsame]
  · rw [rewriteExecStart_trailingSpace hname hspace]
    simp

/-! ## The body -/

/-- The content of a line comes back as the line when it ended in no carriage return and
has no trailing space. -/
theorem rewriteExecStart_dropSeparator_iff {p : Str}
    (hp : offendingValue (dropSeparator '\r' p) = none) :
    rewriteExecStart (dropSeparator '\r' p) = p ↔
      p.getLast? ≠ some '\r' ∧ ¬ TrailingSpace (dropSeparator '\r' p) := by
  by_cases hlast : p.getLast? = some '\r'
  · refine iff_of_false ?_ fun h => h.1 hlast
    intro heq
    obtain ⟨q, rfl⟩ := List.getLast?_eq_some_iff.mp hlast
    have hle := length_rewriteExecStart_le hp
    rw [heq, dropSeparator_append, List.length_append, List.length_singleton] at hle
    omega
  · have hdrop : dropSeparator '\r' p = p := if_neg hlast
    rw [hdrop] at hp ⊢
    rw [rewriteExecStart_eq_self_iff hp, and_iff_right hlast]

theorem rewriteUnitExecStarts_eq_self {body : Str}
    (hbody : ∀ line ∈ lines body, offendingValue line = none) :
    rewriteUnitExecStarts body = body ↔
      ¬ ['\r', '\n'] <:+: body ∧ ∀ line ∈ lines body, ¬ TrailingSpace line := by
  induction body using segments_induction '\n' with
  | nil =>
      have hnil : lines [] = [] := rfl
      have hrewrite : rewriteUnitExecStarts [] = [] := rfl
      rw [hrewrite, hnil]
      simp
  | last p hne hp =>
      rw [lines_last hne hp, List.forall_mem_singleton] at hbody ⊢
      have hcrlf : ¬ ['\r', '\n'] <:+: p := fun h => hp (h.subset (by simp))
      rw [rewriteUnitExecStarts_last hne hp, rewriteExecStart_eq_self_iff hbody,
        and_iff_right hcrlf]
  | cons p rest hp ih =>
      rw [lines_cons hp, List.forall_mem_cons] at hbody ⊢
      have hkeep : '\n' ∉ rewriteExecStart (dropSeparator '\r' p) :=
        notMem_rewriteExecStart (by decide) (by decide) (notMem_dropSeparator hp)
      rw [rewriteUnitExecStarts_cons hp, append_sep_inj hkeep hp,
        rewriteExecStart_dropSeparator_iff hbody.1, ih hbody.2,
        pair_infix_cut (by decide) hp, not_or]
      tauto

/-- A compliant body is left alone exactly when it has no line that ends in a carriage
return and a line feed, and no line with a trailing space behind a fleet binary. -/
theorem rewriteUnitExecStarts_eq_self_iff {unitName unitBody : Str}
    (hcompliant : (checkUnitConvention unitName unitBody).compliant = true) :
    rewriteUnitExecStarts unitBody = unitBody ↔
      ¬ ['\r', '\n'] <:+: unitBody ∧ ∀ line ∈ lines unitBody, ¬ TrailingSpace line :=
  rewriteUnitExecStarts_eq_self (compliant_iff.mp hcompliant)

/-- A compliant unit with arguments and a shell command. -/
def shellUnit : Str :=
  "[Service]\nExecStart=%h/.local/bin/wmd --fast \nExecStart=/bin/true \n".toList

theorem rewriteUnitExecStarts_eq_self_iff_shellUnit :
    ¬ ['\r', '\n'] <:+: shellUnit ∧ ∀ line ∈ lines shellUnit, ¬ TrailingSpace line :=
  (rewriteUnitExecStarts_eq_self_iff (show (checkUnitConvention [] shellUnit).compliant = true by
    decide)).mp (by decide)

/-- Two compliant bodies that the rewrite changes: the first ends its lines in carriage
return and line feed, the second has a trailing space. -/
theorem rewriteUnitExecStarts_ne_self :
    ((checkUnitConvention "wmd.service".toList
        "[Service]\r\nExecStart=%h/.local/bin/wmd\r\n".toList).compliant = true ∧
      rewriteUnitExecStarts "[Service]\r\nExecStart=%h/.local/bin/wmd\r\n".toList =
        "[Service]\nExecStart=%h/.local/bin/wmd\n".toList) ∧
    (checkUnitConvention "wmd.service".toList
        "[Service]\nExecStart=%h/.local/bin/wmd \n".toList).compliant = true ∧
      rewriteUnitExecStarts "[Service]\nExecStart=%h/.local/bin/wmd \n".toList =
        "[Service]\nExecStart=%h/.local/bin/wmd\n".toList := by
  decide

end Wintermute
