import Mini2440.VirtNet.Driver

/-!
# The offsets that the virtual network card touches

The driver never looks at `skb->len` before it rewrites the headers.  It stays in the
frame exactly when the frame reaches the type byte behind a header without options and
holds the header that its own length nibble gives.
-/

namespace Mini2440.VirtNet

open Memory

namespace SkBuff

/-- Nothing outside the frame was touched. -/
def Inside (skb : SkBuff) : Prop := ∀ offset ∈ skb.touched, offset < skb.len

instance (skb : SkBuff) : Decidable skb.Inside :=
  inferInstanceAs (Decidable (∀ offset ∈ skb.touched, offset < skb.len))

theorem inside_touch_iff (skb : SkBuff) (offset count : Nat) :
    (skb.touch offset count).Inside ↔
      skb.Inside ∧ (0 < count → offset + count ≤ skb.len) := by
  constructor
  · intro inside
    constructor
    · intro earlier member
      exact inside earlier (List.mem_append_left _ member)
    · intro positive
      have last : offset + (count - 1) ∈ (skb.touch offset count).touched := by
        apply List.mem_append_right
        rw [List.mem_range'_1]
        omega
      have lastInside : offset + (count - 1) < skb.len := inside _ last
      omega
  · rintro ⟨inside, range⟩ touched member
    rcases List.mem_append.mp member with earlier | here
    · exact inside touched earlier
    · rw [List.mem_range'_1] at here
      have inRange : offset + count ≤ skb.len := range (by omega)
      exact Nat.lt_of_lt_of_le here.2 inRange

theorem inside_write_iff (skb : SkBuff) (offset : Nat) (bytes : List UInt8) :
    (skb.write offset bytes).Inside ↔
      skb.Inside ∧ (0 < bytes.length → offset + bytes.length ≤ skb.len) :=
  inside_touch_iff skb offset bytes.length

theorem inside_swap_iff (skb : SkBuff) {first second count : Nat} (positive : 0 < count) :
    (skb.swap first second count).Inside ↔
      skb.Inside ∧ first + count ≤ skb.len ∧ second + count ≤ skb.len := by
  simp only [swap, read, inside_write_iff, inside_touch_iff, length_load, positive,
    true_imp_iff]
  constructor
  · rintro ⟨⟨⟨⟨inside, first⟩, second⟩, _⟩, _⟩
    exact ⟨inside, first, second⟩
  · rintro ⟨inside, first, second⟩
    exact ⟨⟨⟨⟨inside, first⟩, second⟩, first⟩, second⟩

theorem inside_rebuildCheck_iff (skb : SkBuff) (ipFastCsum : List UInt8 → UInt16) :
    (skb.rebuildCheck ipFastCsum).Inside ↔
      skb.Inside ∧ check + 2 ≤ skb.len ∧ ethhdrSize + 1 ≤ skb.len ∧
        (0 < 4 * skb.ihl → ethhdrSize + 4 * skb.ihl ≤ skb.len) := by
  simp only [rebuildCheck, read, ihl_clearCheck, inside_write_iff, inside_touch_iff]
  constructor
  · rintro ⟨⟨⟨⟨inside, cleared⟩, nibble⟩, header⟩, _⟩
    exact ⟨inside, cleared (by decide), nibble (by decide), header⟩
  · rintro ⟨inside, cleared, nibble, header⟩
    exact ⟨⟨⟨⟨inside, fun _ => cleared⟩, fun _ => nibble⟩, header⟩, fun _ => cleared⟩

end SkBuff

/-- The card stays in the frame exactly when the frame reaches the byte behind a header
without options and holds the header that the length nibble gives. -/
theorem sendPacket_inside_iff (ipFastCsum : List UInt8 → UInt16) (data : Nat → UInt8)
    (len : Nat) (dev : NetDevice) :
    (∀ offset ∈ (virtNetSendPacket ipFastCsum (.handed data len) dev).1.touched,
        offset < len) ↔
      35 ≤ len ∧ 14 + 4 * ihlOf (data 14) ≤ len := by
  let handed := SkBuff.handed data len
  have touched : (virtNetSendPacket ipFastCsum handed dev).1 =
      (handed.swapMac.swapIp.makeReply.rebuildCheck ipFastCsum).touch 0 len := rfl
  have ihl : handed.swapMac.swapIp.makeReply.ihl = ihlOf (data 14) := by
    rw [SkBuff.ihl_makeReply, SkBuff.ihl_swapIp, SkBuff.ihl_swapMac]
    rfl
  have untouched : handed.Inside := fun offset member => absurd member List.not_mem_nil
  have prepared : handed.swapMac.swapIp.makeReply.Inside ↔ 35 ≤ len := by
    rw [SkBuff.makeReply, SkBuff.inside_write_iff, SkBuff.swapIp,
      SkBuff.inside_swap_iff _ (by decide), SkBuff.swapMac,
      SkBuff.inside_swap_iff _ (by decide)]
    change ((_ ∧ 0 + 6 ≤ len ∧ 6 + 6 ≤ len) ∧ 26 + 4 ≤ len ∧ 30 + 4 ≤ len) ∧
      (0 < 1 → 34 + 1 ≤ len) ↔ 35 ≤ len
    constructor
    · rintro ⟨_, type⟩
      exact type Nat.one_pos
    · intro long
      refine ⟨⟨⟨untouched, ?_, ?_⟩, ?_, ?_⟩, fun _ => long⟩ <;> omega
  change SkBuff.Inside _ ↔ _
  rw [touched, SkBuff.inside_touch_iff, SkBuff.inside_rebuildCheck_iff, prepared, ihl]
  change (35 ≤ len ∧ 24 + 2 ≤ len ∧ 14 + 1 ≤ len ∧ (_ → 14 + _ ≤ len)) ∧
    (0 < len → 0 + len ≤ len) ↔ _
  omega

/-- The type byte of a frame of 20 bytes lies behind it, and so does a part of a header
that claims 15 words in a frame of 60 bytes. -/
theorem sendPacket_not_inside :
    ¬ (∀ offset ∈ (virtNetSendPacket rfc1071Csum (.handed (fun _ => 0) 20)
        virtNetInit).1.touched, offset < 20) ∧
      ¬ ∀ offset ∈ (virtNetSendPacket rfc1071Csum (.handed (fun _ => 0xff) 60)
        virtNetInit).1.touched, offset < 60 := by
  decide

end Mini2440.VirtNet
