import Mini2440.VirtNet.Checksum

/-!
# The checksums of a ping and of its reply

`emulator_rx_packet` sets the type of the ICMP message to 0 and leaves the checksum of the
message alone, so that a receiver that checks it drops the reply; the driver sets
`CHECKSUM_UNNECESSARY` for the frame.  The exchange of the addresses does not change the sum
over the IP header, so that its checksum is built again to the number that it was.
-/

namespace Mini2440.VirtNet

open Memory Splice OnesComplement

/-- The halfwords of a message in network order, an odd byte at its end filled up with 0. -/
def beHalfwords : List UInt8 → List Nat
  | first :: second :: rest => (256 * first.toNat + second.toNat) :: beHalfwords rest
  | [last] => [256 * last.toNat]
  | [] => []

/-- The one's complement sum over the message is full. -/
def IcmpVerifies (message : List UInt8) : Prop := sum 65536 (beHalfwords message) = 0xffff

instance (message : List UInt8) : Decidable (IcmpVerifies message) :=
  inferInstanceAs (Decidable (_ = _))

/-- The ICMP message of a frame whose IP header has `ihl` words, in a datagram of `total`
bytes. -/
def icmpMessage (frame : List UInt8) (ihl total : Nat) : List UInt8 :=
  slice frame (ethhdrSize + 4 * ihl) (total - 4 * ihl)

/-- The checksum of the IP header of a frame, as a little-endian processor reads it. -/
def checkOf (frame : List UInt8) : Nat :=
  (frame.getD check 0).toNat + 256 * (frame.getD (check + 1) 0).toNat

/-! ## The message -/

/-- A message that verifies does not when its first byte, 8, is replaced by 0. -/
theorem not_icmpVerifies_reply {second : UInt8} {rest : List UInt8}
    (verifies : IcmpVerifies (8 :: second :: rest)) : ¬ IcmpVerifies (0 :: second :: rest) := by
  intro again
  have request := sum_modEq (show 0 < 65536 by decide) (beHalfwords (8 :: second :: rest))
  have reply := sum_modEq (show 0 < 65536 by decide) (beHalfwords (0 :: second :: rest))
  rw [verifies] at request
  rw [again] at reply
  simp only [beHalfwords, List.sum_cons, UInt8.toNat_ofNat, Nat.ModEq] at request reply
  omega

theorem load_two (memory : Nat → UInt8) (start behind : Nat) :
    load memory start (2 + behind) =
      memory start :: memory (start + 1) :: load memory (start + 2) behind := by
  rw [load_add]
  rfl

/-- What the delivered frame has at the place of the message. -/
theorem icmpMessage_rewrite (ipFastCsum : List UInt8 → UInt16) (request : EchoRequest) :
    ∃ second rest, icmpMessage request.skb.frame request.skb.ihl request.total =
        8 :: second :: rest ∧
      icmpMessage (request.skb.rewrite ipFastCsum).frame request.skb.ihl request.total =
        (if request.skb.ihl = 5 then 0 else 8) :: second :: rest := by
  have header := request.header
  have message := request.message
  have inside := request.inside
  have rewritten := rewritten ipFastCsum request.skb
  obtain ⟨behind, size⟩ : ∃ behind, request.total - 4 * request.skb.ihl = 2 + behind :=
    ⟨request.total - 4 * request.skb.ihl - 2, by omega⟩
  have within : ethhdrSize + 4 * request.skb.ihl + (request.total - 4 * request.skb.ihl) ≤
      request.skb.len := by
    simp only [ethhdrSize]
    omega
  have sent : icmpMessage request.skb.frame request.skb.ihl request.total =
      load request.skb.data (14 + 4 * request.skb.ihl) (2 + behind) := by
    rw [icmpMessage, request.skb.slice_frame within, size]
    rfl
  have delivered : icmpMessage (request.skb.rewrite ipFastCsum).frame request.skb.ihl
      request.total = load (request.skb.rewrite ipFastCsum).data
        (14 + 4 * request.skb.ihl) (2 + behind) := by
    have length : (request.skb.rewrite ipFastCsum).len = request.skb.len := rfl
    rw [icmpMessage, SkBuff.slice_frame _ (length ▸ within), size]
    rfl
  have other (offset : Nat) (behindType : 14 + 4 * request.skb.ihl < offset) :
      (request.skb.rewrite ipFastCsum).data offset = request.skb.data offset :=
    rewritten.other offset (by omega) (by omega)
  have rest : load (request.skb.rewrite ipFastCsum).data (14 + 4 * request.skb.ihl + 2) behind =
      load request.skb.data (14 + 4 * request.skb.ihl + 2) behind :=
    load_congr fun address above _ => other address (by omega)
  refine ⟨request.skb.data (14 + 4 * request.skb.ihl + 1),
    load request.skb.data (14 + 4 * request.skb.ihl + 2) behind, ?_, ?_⟩
  · rw [sent, load_two, request.echo.1]
  · rw [delivered, load_two, rest, other (14 + 4 * request.skb.ihl + 1) (by omega)]
    congr 1
    split
    next plain =>
        rw [plain]
        exact rewritten.reply
    next options =>
        rw [rewritten.other _ (by omega) (by omega)]
        exact request.echo.1

/-! ## The header -/

/-- The word of a little-endian processor at the offset. -/
def word (data : Nat → UInt8) (offset : Nat) : Nat :=
  (data offset).toNat + 256 * (data (offset + 1)).toNat +
    65536 * ((data (offset + 2)).toNat + 256 * (data (offset + 3)).toNat)

theorem word_congr {first second : Nat → UInt8} {offset other : Nat}
    (same : load first offset 4 = load second other 4) :
    word first offset = word second other := by
  obtain ⟨first_eq, second_eq, third_eq, fourth_eq⟩ :
      first offset = second other ∧ first (offset + 1) = second (other + 1) ∧
        first (offset + 2) = second (other + 2) ∧ first (offset + 3) = second (other + 3) := by
    simpa [load, List.range_succ] using same
  rw [word, word, first_eq, second_eq, third_eq, fourth_eq]

/-- The checksum is the upper half of the third of the five words. -/
theorem sum_leWords (data : Nat → UInt8) :
    (leWords (load data ethhdrSize 20)).sum =
      word data 14 + (word data 18 +
        ((data 22).toNat + 256 * (data 23).toNat +
          65536 * ((data check).toNat + 256 * (data (check + 1)).toNat) +
        (word data saddr + (word data daddr + 0)))) := rfl

/-- The exchange of the addresses leaves the sum alone. -/
theorem sum_leWords_rewrite (ipFastCsum : List UInt8 → UInt16) (skb : SkBuff) :
    ∃ others, ∀ data, (data = skb.data ∨ data = (skb.rewrite ipFastCsum).data) →
      (leWords (load data ethhdrSize 20)).sum =
        others + 65536 * ((data check).toNat + 256 * (data (check + 1)).toNat) := by
  have rewritten := rewritten ipFastCsum skb
  have other (offset : Nat) (above : 12 ≤ offset) (below : offset < 24) :
      (skb.rewrite ipFastCsum).data offset = skb.data offset :=
    rewritten.other offset above (.inl below)
  have front (offset : Nat) (above : 12 ≤ offset) (below : offset + 4 ≤ 24) :
      word (skb.rewrite ipFastCsum).data offset = word skb.data offset :=
    word_congr (load_congr fun address low high => other address (by omega) (by omega))
  refine ⟨word skb.data 14 + word skb.data 18 + ((skb.data 22).toNat + 256 * (skb.data 23).toNat) +
    word skb.data saddr + word skb.data daddr, ?_⟩
  rintro data (rfl | rfl)
  · rw [sum_leWords]
    omega
  · rw [sum_leWords, front 14 (by decide) (by decide), front 18 (by decide) (by decide),
      other 22 (by decide) (by decide), other 23 (by decide) (by decide),
      word_congr rewritten.ipSource, word_congr rewritten.ipDest]
    omega

theorem SkBuff.checkOf_frame (skb : SkBuff) (long : 26 ≤ skb.len) :
    checkOf skb.frame = (skb.data check).toNat + 256 * (skb.data (check + 1)).toNat := by
  have low : skb.frame[check]? = some (skb.data check) :=
    skb.getElem?_frame (Nat.lt_of_lt_of_le (by decide) long)
  have high : skb.frame[check + 1]? = some (skb.data (check + 1)) :=
    skb.getElem?_frame (Nat.lt_of_lt_of_le (by decide) long)
  rw [checkOf, List.getD_eq_getElem?_getD, List.getD_eq_getElem?_getD, low, high]
  rfl

/-- A header of five words that verified gets the checksum that it had. -/
theorem checkOf_rewrite {ipFastCsum : List UInt8 → UInt16} (rfc1071 : IsRfc1071 ipFastCsum)
    {skb : SkBuff} (long : 34 ≤ skb.len) (plain : skb.ihl = 5)
    (verified : foldedSum (ipHeader skb.frame) = 0xffff) :
    checkOf (skb.rewrite ipFastCsum).frame ≡ checkOf skb.frame [MOD 0xffff] := by
  have length : (skb.rewrite ipFastCsum).len = skb.len := rfl
  obtain ⟨others, sums⟩ := sum_leWords_rewrite ipFastCsum skb
  have sent : foldedSum (load skb.data ethhdrSize 20) = 0xffff := by
    rw [skb.ipHeader_frame (Nat.le_trans (by decide) long) (by omega), plain] at verified
    exact verified
  have renewed : foldedSum (load (skb.rewrite ipFastCsum).data ethhdrSize (4 * skb.ihl)) =
      0xffff := foldedSum_rewrite rfc1071 (by omega)
  rw [plain] at renewed
  have before := fold_sum_modEq (show 0 < 65536 by decide) (leWords (load skb.data ethhdrSize 20))
  have after := fold_sum_modEq (show 0 < 65536 by decide)
    (leWords (load (skb.rewrite ipFastCsum).data ethhdrSize (4 * 5)))
  rw [← foldedSum, sent, sums _ (.inl rfl)] at before
  rw [← foldedSum, renewed, sums _ (.inr rfl)] at after
  rw [SkBuff.checkOf_frame _ (Nat.le_trans (by decide) (length ▸ long)),
    skb.checkOf_frame (Nat.le_trans (by decide) long)]
  simp only [Nat.ModEq] at before after ⊢
  omega

/-! ## The reply -/

/-- An ICMP echo reply that a receiver which checks the checksum takes. -/
def IsEchoReply (message : List UInt8) : Prop := message.head? = some 0 ∧ IcmpVerifies message

/-- What becomes of the checksums of a request: of a message that verifies no frame makes an
echo reply that does, for the type becomes 0 exactly when the message no longer verifies; and
a header without options that verifies keeps its checksum, up to the two zeros of one's
complement. -/
structure ChecksumsOf (request : EchoRequest) (frame : List UInt8) : Prop where
  message : IcmpVerifies (icmpMessage request.skb.frame request.skb.ihl request.total) →
    ((icmpMessage frame request.skb.ihl request.total).head? = some 0 ↔
      ¬ IcmpVerifies (icmpMessage frame request.skb.ihl request.total))
  noReply : IcmpVerifies (icmpMessage request.skb.frame request.skb.ihl request.total) →
    ¬ IsEchoReply (icmpMessage frame request.skb.ihl request.total)
  header : request.skb.ihl = 5 → foldedSum (ipHeader request.skb.frame) = 0xffff →
    checkOf frame ≡ checkOf request.skb.frame [MOD 0xffff]

/-- With `ip_fast_csum` as RFC 1071 has it, for every echo request the header checksum comes
out right and the message checksum wrong: no reply of the card to a request that verifies is
an echo reply that verifies. -/
theorem reply_checksums {ipFastCsum : List UInt8 → UInt16} (rfc1071 : IsRfc1071 ipFastCsum)
    (request : EchoRequest) (dev : NetDevice) :
    ∃ frame, (emulatorRxPacket ipFastCsum request.skb dev).2.received =
        dev.received ++ [frame] ∧ ChecksumsOf request frame := by
  refine ⟨_, emulatorRxPacket_received ipFastCsum request.skb dev, ?_⟩
  obtain ⟨second, rest, sent, delivered⟩ := icmpMessage_rewrite ipFastCsum request
  have header := request.header
  have inside := request.inside
  have message := request.message
  have changes (verifies : IcmpVerifies (icmpMessage request.skb.frame request.skb.ihl
        request.total)) :
      (icmpMessage (request.skb.rewrite ipFastCsum).frame request.skb.ihl
          request.total).head? = some 0 ↔
        ¬ IcmpVerifies (icmpMessage (request.skb.rewrite ipFastCsum).frame request.skb.ihl
          request.total) := by
    rw [sent] at verifies
    rw [delivered]
    by_cases plain : request.skb.ihl = 5
    · rw [if_pos plain]
      exact iff_of_true rfl (not_icmpVerifies_reply verifies)
    · rw [if_neg plain]
      exact iff_of_false (by simp) (not_not_intro verifies)
  constructor
  case message => exact changes
  case noReply => exact fun verifies reply => (changes verifies).mp reply.1 reply.2
  case header => exact fun plain => checkOf_rewrite rfc1071 (by omega) plain

/-- A ping without options, both of whose checksums verify. -/
def plainPing : EchoRequest where
  skb := .handed (fun offset => [
    0x08, 0x89, 0x89, 0x89, 0x89, 0x12, 0x08, 0x89, 0x89, 0x89, 0x89, 0x11, 0x08, 0x00,
    0x45, 0x00, 0x00, 0x1c, 0x12, 0x34, 0x00, 0x00, 0x40, 0x01, 0xe5, 0x57,
    0xc0, 0xa8, 0x01, 0x02, 0xc0, 0xa8, 0x01, 0x03,
    0x08, 0x00, 0xf7, 0xfd, 0x00, 0x01, 0x00, 0x01].getD offset 0) 42
  total := 28
  ipv4 := by decide
  version := by decide
  header := by decide
  totLen := by decide
  icmp := by decide
  echo := by decide
  message := by decide
  inside := by decide

theorem plainPing_checksums :
    IcmpVerifies (icmpMessage plainPing.skb.frame plainPing.skb.ihl plainPing.total) ∧
      foldedSum (ipHeader plainPing.skb.frame) = 0xffff ∧
      ∃ frame, (emulatorRxPacket rfc1071Csum plainPing.skb virtNetInit).2.received =
        virtNetInit.received ++ [frame] ∧ ChecksumsOf plainPing frame :=
  ⟨by decide, by decide, reply_checksums isRfc1071_rfc1071Csum plainPing virtNetInit⟩

end Mini2440.VirtNet
