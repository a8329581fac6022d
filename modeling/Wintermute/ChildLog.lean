import Wintermute.Foundation.LexicalPath
import Wintermute.Foundation.Utf8
import Wintermute.Protocol
import Wintermute.Text

/-!
# The log file of a child

A log request names a child, and the supervisor reads the file with that name and the
ending {lit}`.log` in its log directory.  The name comes from the socket unchecked, so
it may hold separators and dots: the file is then wherever they lead.

Main results:

- Theorem {lit}`childLogPath_inside_iff`: which names stay directly inside the log
  directory.
- Theorem {lit}`dispatch_logs`: a log request for a name without separator depends on one
  file in the log directory.
-/

namespace Wintermute

open Foundation

/-! ## Paths -/

/-- The separator of path components. -/
def slash : UInt8 := 0x2F

/-- The byte of the two special components. -/
def dot : UInt8 := 0x2E

/-- The bytes of a file name ending in {lit}`.log`. -/
def logFile (child : String) : List UInt8 :=
  utf8Bytes (child.toList ++ ".log".toList)

/-- The log directory under a home directory. -/
def logsDir (home : Option (List UInt8)) : List UInt8 :=
  joinPath slash (home.getD (utf8Bytes "/tmp".toList))
    (utf8Bytes ".local/state/wintermute/logs".toList)

/-- The log path of a child under a home directory. -/
def childLogPathWith (home : Option (List UInt8)) (child : String) : List UInt8 :=
  joinPath slash (logsDir home) (logFile child)

/-! ## Reading -/

/-- The last lines of a text, oldest first. -/
def lastLines (tail : ℕ) (all : List Str) : List Str :=
  if all.length > tail then all.drop (all.length - tail) else all

/-- Read the last lines of a child's log; a missing file has none. -/
def tailChildLogWith (read : FileReader) (home : Option (List UInt8)) (child : String)
    (tail : UInt64) : Except String (List Str) :=
  match read (childLogPathWith home child) with
  | .ok text => if tail = 0 then .ok [] else .ok (lastLines tail.toNat (lines text))
  | .error .notFound => .ok []
  | .error (.other text) => .error text

/-- The same for the home directory of the process, as the supervisor serves it. -/
def tailChildLog (read : FileReader) (home : Option (List UInt8)) (child : String)
    (tail : UInt64) : Except String (List String) :=
  (tailChildLogWith read home child tail).map (List.map String.ofList)

/-! ## Where the path leads -/

/-- The path a log request reads leads directly inside the log directory exactly when
the child's name enters again what it climbs, and one file name more. -/
theorem childLogPath_inside_iff (home : Option (List UInt8)) (child : String) :
    DirectlyInside slash dot (logsDir home) (childLogPathWith home child) ↔
      StaysInside slash dot (logsDir home) (logFile child) :=
  directlyInside_join_iff (logsDir home) (logFile child)

/-- A home directory and a child's name that climbs out of its logs. -/
theorem childLogPath_not_inside :
    ¬ DirectlyInside slash dot (logsDir (some (utf8Bytes "/home/ada".toList)))
      (childLogPathWith (some (utf8Bytes "/home/ada".toList)) "../../../../secret") ∧
    resolve slash dot (childLogPathWith (some (utf8Bytes "/home/ada".toList))
      "../../../../secret") =
      resolve slash dot (utf8Bytes "/home/ada/secret.log".toList) := by
  have hresolve : resolve slash dot (childLogPathWith (some (utf8Bytes "/home/ada".toList))
      "../../../../secret") =
      resolve slash dot (utf8Bytes "/home/ada/secret.log".toList) := by
    decide
  refine ⟨?_, hresolve⟩
  rintro ⟨name, hname⟩
  rw [hresolve] at hname
  have hlength := congrArg (fun loc => loc.names.length) hname
  simp only [List.length_append, List.length_singleton] at hlength
  revert hlength
  decide

/-- A name without separator stays directly inside the log directory. -/
theorem childLogPath_inside_of_noSlash (home : Option (List UInt8)) {child : String}
    (hchild : '/' ∉ child.toList) :
    DirectlyInside slash dot (logsDir home) (childLogPathWith home child) := by
  have hlog : logFile child = utf8Bytes child.toList ++ utf8Bytes ".log".toList :=
    utf8Bytes_append _ _
  have hlength : 4 ≤ (logFile child).length := by
    rw [hlog, List.length_append]
    exact le_trans (by decide) (Nat.le_add_left _ _)
  have hslash : slash ∉ logFile child := by
    intro hmem
    have hfile : '/' ∉ child.toList ++ ".log".toList := by
      rw [List.mem_append, not_or]
      exact ⟨hchild, by decide⟩
    exact hfile (mem_of_byte_mem rfl (by decide) hmem)
  refine (directlyInside_join_iff (logsDir home) (logFile child)).mpr ?_
  refine staysInside_of_noSep ?_ hslash ?_ ?_ <;> intro heq <;> rw [heq] at hlength
  · exact absurd hlength (by decide)
  · exact absurd hlength (by decide)
  · exact absurd hlength (by decide)

/-! ## A log request -/

/-- What a tail answers is the end of the file's lines, no longer than asked for. -/
theorem tailChildLogWith_ok {read : FileReader} {home : Option (List UInt8)} {child : String}
    {tail : UInt64} {text : Str} (hread : read (childLogPathWith home child) = .ok text) :
    ∃ all, tailChildLogWith read home child tail = .ok all ∧ all <:+ lines text ∧
      all.length = min tail.toNat (lines text).length := by
  rw [tailChildLogWith, hread]
  by_cases hzero : tail = 0
  · refine ⟨[], by simp [hzero], List.nil_suffix, ?_⟩
    simp [hzero]
  · refine ⟨lastLines tail.toNat (lines text), by simp [hzero], ?_, ?_⟩
    · rw [lastLines]
      split_ifs
      · exact List.drop_suffix _ _
      · exact List.suffix_refl _
    · rw [lastLines]
      split_ifs with hlong
      · rw [List.length_drop]
        omega
      · omega

/-- What a log request is answered, from what there is at the log path of the child. -/
def LogAnswer (child : String) (tail : UInt64) (resp : Response) : Except ReadError Str → Prop
  | .ok text => ∃ all, all <:+ lines text ∧ all.length = min tail.toNat (lines text).length ∧
      resp = .logs child (all.map String.ofList)
  | .error .notFound => resp = .logs child []
  | .error (.other e) => resp = .error s!"tail {child}: {e}"

/-- A log request is answered from the file at the child's log path. -/
theorem dispatch_logs_answer (read : FileReader) (home : Option (List UInt8)) (child : String)
    (tail : UInt64) (view : SupervisorView) :
    LogAnswer child tail (dispatch (tailChildLog read home) (.logs child tail) view).1
      (read (childLogPathWith home child)) := by
  cases hread : read (childLogPathWith home child) with
  | ok text =>
      obtain ⟨all, hall, hsuffix, hlength⟩ := @tailChildLogWith_ok _ _ _ tail _ hread
      refine ⟨all, hsuffix, hlength, ?_⟩
      rw [dispatch, tailChildLog, hall]
      rfl
  | error e =>
      rw [dispatch, tailChildLog, tailChildLogWith, hread]
      cases e <;> rfl

end Wintermute
