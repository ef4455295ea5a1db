import DiagramScript.Json.Reader
import DiagramScript.Proofs.Settles

/-
  Faults of the reader of JSON texts.

  A text that cannot be read is no JSON, is nested too deep, or has a whole number of too
  many digits; nothing else goes wrong in it.
-/

namespace DiagramScript.Json

/-- The faults of a text that cannot be read. -/
inductive Unread : Fault → Prop
  | malformed : Unread (.parse .notJson none)
  | tooDeep : Unread .tooDeep
  | tooManyDigits (count : Nat) : Unread (.arithmetic (.tooManyDigits count))

/-- A computation that fails as the reading of a text does. -/
abbrev Reads {α : Type} (x : Except Fault α) : Prop := Settles Unread (fun _ => True) x

theorem malformed_reads {α : Type} : Reads (malformed : Except Fault α) :=
  Settles.error Unread.malformed

theorem ok_reads {α : Type} (a : α) : Reads (.ok a) := Settles.ok trivial

theorem stringBody_reads (fuel : Nat) (cs : List Char) : Reads (stringBody fuel cs) := by
  fun_induction stringBody fuel cs with
  | case1 | case2 | case4 | case6 | case8 => exact malformed_reads
  | case3 => exact ok_reads _
  | case5 _ _ _ _ _ ih | case7 _ _ _ _ _ _ ih | case9 _ _ _ _ _ _ _ ih =>
    refine ih.bind fun (_, _) _ => ?_
    exact ok_reads _

theorem wholeNumber_reads (negative : Bool) (ds : List Char) :
    Reads (wholeNumber negative ds) := by
  unfold wholeNumber
  split
  · exact Settles.error (Unread.tooManyDigits _)
  · exact ok_reads _

theorem number_reads (negative : Bool) (cs : List Char) : Reads (number negative cs) := by
  unfold number
  apply Settles.ite
  · exact fun _ => malformed_reads
  · intro _
    apply Settles.ite
    · exact fun _ => (wholeNumber_reads _ _).bind fun _ _ => ok_reads _
    · exact fun _ => ok_reads _

theorem nested_reads (room : Nat) : Reads (nested room) := by
  cases room with
  | zero => exact Settles.error Unread.tooDeep
  | succ room => exact ok_reads _

section Step
variable {fuel : Nat}

theorem value_step (helements : ∀ room cs, Reads (elements fuel room cs))
    (hmembers : ∀ room before cs, Reads (members fuel room before cs)) (room : Nat)
    (cs : List Char) : Reads (value (fuel + 1) room cs) := by
  unfold value
  split
  · refine (stringBody_reads _ _).bind fun (_, _) _ => ?_
    exact ok_reads _
  · refine (nested_reads _).bind fun room _ => ?_
    split
    · exact ok_reads _
    · refine (helements _ _).bind fun (_, _) _ => ?_
      exact ok_reads _
  · refine (nested_reads _).bind fun room _ => ?_
    split
    · exact ok_reads _
    · refine (hmembers _ _ _).bind fun (_, _) _ => ?_
      exact ok_reads _
  · split
    · exact ok_reads _
    · exact number_reads _ _
    · exact number_reads _ _

theorem elements_step (hvalue : ∀ room cs, Reads (value fuel room cs))
    (helements : ∀ room cs, Reads (elements fuel room cs)) (room : Nat) (cs : List Char) :
    Reads (elements (fuel + 1) room cs) := by
  unfold elements
  refine (hvalue _ _).bind fun (_, _) _ => ?_
  dsimp only
  split
  · exact ok_reads _
  · refine (helements _ _).bind fun (_, _) _ => ?_
    exact ok_reads _
  · exact malformed_reads

theorem members_step (hvalue : ∀ room cs, Reads (value fuel room cs))
    (hmembers : ∀ room before cs, Reads (members fuel room before cs)) (room : Nat)
    (before : List (String × Value)) (cs : List Char) :
    Reads (members (fuel + 1) room before cs) := by
  unfold members
  split
  · refine (stringBody_reads _ _).bind fun (_, _) _ => ?_
    dsimp only
    split
    · refine (hvalue _ _).bind fun (_, _) _ => ?_
      split
      · exact ok_reads _
      · exact hmembers _ _ _
      · exact malformed_reads
    · exact malformed_reads
  · exact malformed_reads

end Step

theorem value_reads (fuel : Nat) :
    (∀ room cs, Reads (value fuel room cs)) ∧
    (∀ room cs, Reads (elements fuel room cs)) ∧
    ∀ room before cs, Reads (members fuel room before cs) := by
  -- By induction on the steps that are left, at once for values, items and entries.
  induction fuel with
  | zero =>
    refine ⟨fun _ _ => ?_, fun _ _ => ?_, fun _ _ _ => ?_⟩
    · rw [value]
      exact malformed_reads
    · rw [elements]
      exact malformed_reads
    · rw [members]
      exact malformed_reads
  | succ fuel ih =>
    obtain ⟨hvalue, helements, hmembers⟩ := ih
    exact ⟨value_step helements hmembers, elements_step hvalue helements,
      members_step hvalue hmembers⟩

theorem read_reads (text : String) (room : Nat) : Reads (read text room) := by
  unfold read
  refine ((value_reads _).1 _ _).bind fun (_, _) _ => ?_
  apply Settles.ite
  · exact fun _ => ok_reads _
  · exact fun _ => malformed_reads

end DiagramScript.Json
