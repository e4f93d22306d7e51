import Mathlib.Data.List.Basic

/-!
# Devices on an open-drain wire

A device can only pull the wire low.  So an acknowledge slot is low when one device pulls
it, and of the bytes that several devices send the wire carries the conjunction.  A device
that keeps out of the way releases the wire, and the wire shows what the others do.
-/

namespace Mini2440.OpenDrain

/-- What one device does to the wire: it pulls the acknowledge slot low or not, and the byte
that it sends, with all bits set where it sends none. -/
structure Drive where
  pulls : Bool
  sda : UInt8
  deriving DecidableEq, Repr

/-- The device leaves the wire alone. -/
def Drive.released : Drive := ⟨false, 0xff⟩

/-- What the wire shows. -/
def wired (drives : List Drive) : Drive where
  pulls := drives.any Drive.pulls
  sda := drives.foldr (fun drive sda => drive.sda &&& sda) 0xff

@[simp] theorem wired_nil : wired [] = .released := rfl

theorem wired_cons (drive : Drive) (drives : List Drive) :
    wired (drive :: drives) =
      ⟨drive.pulls || (wired drives).pulls, drive.sda &&& (wired drives).sda⟩ := rfl

theorem allOnes_and (byte : UInt8) : 0xff &&& byte = byte := by
  apply UInt8.toBitVec_inj.mp
  exact BitVec.allOnes_and

theorem wired_of_released {drives : List Drive}
    (released : ∀ drive ∈ drives, drive = .released) : wired drives = .released := by
  induction drives with
  | nil => rfl
  | cons drive drives ih =>
      have head : drive = .released := released drive List.mem_cons_self
      have tail := ih fun other member => released other (List.mem_cons_of_mem _ member)
      rw [wired_cons, head, tail]
      rfl

/-- Where all who do something do the same, the wire shows it. -/
theorem wired_of_same {drives : List Drive} {drive : Drive} (member : drive ∈ drives)
    (same : ∀ other ∈ drives, other = drive ∨ other = .released) : wired drives = drive := by
  induction drives with
  | nil => exact absurd member List.not_mem_nil
  | cons head drives ih =>
      have tailSame : ∀ other ∈ drives, other = drive ∨ other = .released :=
        fun other inTail => same other (List.mem_cons_of_mem _ inTail)
      rw [wired_cons]
      by_cases inTail : drive ∈ drives
      · rw [ih inTail tailSame]
        rcases same head List.mem_cons_self with rfl | rfl
        · rw [Bool.or_self, UInt8.and_self]
        · rw [Drive.released, Bool.false_or, allOnes_and]
      · have here : drive = head := (List.mem_cons.mp member).resolve_right inTail
        have rest : wired drives = .released := by
          apply wired_of_released
          intro other otherInTail
          rcases tailSame other otherInTail with rfl | released
          · exact absurd otherInTail inTail
          · exact released
        rw [rest, here, Drive.released, Bool.or_false, UInt8.and_comm, allOnes_and]

end Mini2440.OpenDrain
