import Mini2440.VirtNet.Reply

/-!
# The header checksum of the virtual network card

With `ip_fast_csum` the checksum of RFC 1071, every frame that holds its IP header comes
back with a header that verifies, whatever the old checksum was and whether the type byte
was part of the options, and sending it once more restores the addresses.
-/

namespace Mini2440.VirtNet

open Memory Splice OnesComplement

/-! ## The sum over the words of a header -/

/-- The one's complement sum of the words, folded to a halfword. -/
def foldedSum (header : List UInt8) : Nat := fold 65536 (sum (65536 * 65536) (leWords header))

/-- The IP header of a frame, with the length that its own nibble gives. -/
def ipHeader (frame : List UInt8) : List UInt8 :=
  slice frame ethhdrSize (4 * ihlOf (frame.getD ethhdrSize 0))

theorem leWords_lt (bytes : List UInt8) : ∀ word ∈ leWords bytes, word < 65536 * 65536 := by
  fun_induction leWords bytes with
  | case1 first second third fourth rest ih =>
      rw [List.forall_mem_cons]
      refine ⟨?_, ih⟩
      have firstLt := first.toNat_lt
      have secondLt := second.toNat_lt
      have thirdLt := third.toNat_lt
      have fourthLt := fourth.toNat_lt
      omega
  | case2 => exact fun word member => absurd member List.not_mem_nil

/-- The checksum is the upper half of the third word. -/
theorem leWords_check {front : List UInt8} (ten : front.length = 10) :
    ∃ words low, low < 65536 ∧ (∀ word ∈ words, word < 65536 * 65536) ∧
      ∀ third fourth rest, leWords (front ++ third :: fourth :: rest) =
        words ++ (low + 65536 * (third.toNat + 256 * fourth.toNat)) :: leWords rest := by
  match front, ten with
  | [b0, b1, b2, b3, b4, b5, b6, b7, b8, b9], _ =>
      refine ⟨leWords [b0, b1, b2, b3, b4, b5, b6, b7], b8.toNat + 256 * b9.toNat, ?_,
        leWords_lt _, fun third fourth rest => rfl⟩
      have lowLt := b8.toNat_lt
      have highLt := b9.toNat_lt
      omega

theorem halfword_toNat (halfword : UInt16) :
    halfword.toUInt8.toNat + 256 * (halfword >>> 8).toUInt8.toNat = halfword.toNat := by
  have below := halfword.toNat_lt
  simp only [UInt16.toNat_toUInt8, UInt16.toNat_shiftRight]
  rw [show UInt16.toNat 8 % 16 = 8 from rfl, Nat.shiftRight_eq_div_pow]
  omega

/-- A header whose checksum field was zero verifies with its checksum in the field. -/
theorem foldedSum_renewed {ipFastCsum : List UInt8 → UInt16} (rfc1071 : IsRfc1071 ipFastCsum)
    {front rest : List UInt8} (ten : front.length = 10) (whole : 4 ∣ 12 + rest.length) :
    foldedSum (front ++ (halfwordBytes (ipFastCsum (front ++ ([0, 0] ++ rest))) ++ rest)) =
      0xffff := by
  obtain ⟨words, low, lowLt, wordsLt, split⟩ := leWords_check ten
  have length : (front ++ ([0, 0] ++ rest)).length = 12 + rest.length := by
    simp only [List.length_append, ten, List.length_cons, List.length_nil]
    omega
  have computed := rfc1071 (front ++ ([0, 0] ++ rest)) (length ▸ whole)
  have cleared : leWords (front ++ ([0, 0] ++ rest)) = words ++ low :: leWords rest :=
    split 0 0 rest
  rw [cleared] at computed
  have renewed : leWords (front ++ (halfwordBytes (ipFastCsum (front ++ ([0, 0] ++ rest))) ++
      rest)) = words ++ (low + 65536 * checksum 65536 (words ++ low :: leWords rest)) ::
        leWords rest := by
    rw [← computed, ← halfword_toNat]
    exact split _ _ rest
  have twoDigits : ∀ word ∈ words ++ leWords rest, word < 65536 * 65536 :=
    List.forall_mem_append.mpr ⟨wordsLt, leWords_lt rest⟩
  rw [foldedSum, renewed]
  exact fold_sum_checksum (by decide) lowLt twoDigits

/-! ## The header of the delivered frame -/

theorem SkBuff.ipHeader_frame (skb : SkBuff) (long : 15 ≤ skb.len)
    (whole : 14 + 4 * skb.ihl ≤ skb.len) :
    ipHeader skb.frame = load skb.data ethhdrSize (4 * skb.ihl) := by
  have nibble : skb.frame.getD ethhdrSize 0 = skb.data ethhdrSize := by
    have held : skb.frame[ethhdrSize]? = some (skb.data ethhdrSize) := skb.getElem?_frame long
    rw [List.getD_eq_getElem?_getD, held]
    rfl
  rw [ipHeader, nibble]
  exact skb.slice_frame whole

theorem rewrite_ihl (ipFastCsum : List UInt8 → UInt16) (skb : SkBuff) :
    (skb.rewrite ipFastCsum).ihl = skb.ihl :=
  congrArg ihlOf ((rewritten ipFastCsum skb).other 14 (by decide) (.inl (by decide)))

theorem foldedSum_rewrite {ipFastCsum : List UInt8 → UInt16}
    (rfc1071 : IsRfc1071 ipFastCsum) {skb : SkBuff} (header : 5 ≤ skb.ihl) :
    foldedSum (load (skb.rewrite ipFastCsum).data ethhdrSize (4 * skb.ihl)) = 0xffff := by
  let reply := skb.swapMac.swapIp.makeReply
  let cleared := reply.write check [0, 0]
  have ihl : cleared.ihl = skb.ihl := by
    rw [SkBuff.ihl_clearCheck, SkBuff.ihl_makeReply, SkBuff.ihl_swapIp, SkBuff.ihl_swapMac]
  obtain ⟨behind, size⟩ : ∃ behind, 4 * skb.ihl = 10 + (2 + behind) :=
    ⟨4 * skb.ihl - 12, by omega⟩
  have whole : 4 ∣ 12 + (load reply.data 26 behind).length := by
    rw [length_load]
    omega
  have summed : load cleared.data ethhdrSize (4 * cleared.ihl) =
      load reply.data ethhdrSize 10 ++ ([0, 0] ++ load reply.data 26 behind) := by
    rw [ihl, size]
    exact load_store_within reply.data ethhdrSize 10 [0, 0] behind
  have front : load cleared.data ethhdrSize 10 = load reply.data ethhdrSize 10 :=
    load_store_disjoint reply.data (.inl (Nat.le_refl check))
  have rest : load cleared.data 26 behind = load reply.data 26 behind :=
    load_store_disjoint reply.data (.inr (Nat.le_refl 26))
  have renewed : load (skb.rewrite ipFastCsum).data ethhdrSize (4 * skb.ihl) =
      load cleared.data ethhdrSize 10 ++
        (halfwordBytes (ipFastCsum (load cleared.data ethhdrSize (4 * cleared.ihl))) ++
          load cleared.data 26 behind) := by
    rw [size]
    exact load_store_within cleared.data ethhdrSize 10 (halfwordBytes _) behind
  rw [renewed, summed, front, rest]
  exact foldedSum_renewed rfc1071 (length_load _ _ _) whole

/-- The frame is as long as the one that was sent, has its addresses exchanged, and its IP
header verifies. -/
structure ValidReply (sent frame : List UInt8) : Prop where
  length : frame.length = sent.length
  addresses : AddressesExchanged sent frame
  header : foldedSum (ipHeader frame) = 0xffff

/-- The frame has the addresses of `sent`. -/
structure SameAddresses (sent frame : List UInt8) : Prop where
  macDest : slice frame hDest ETH_ALEN = slice sent hDest ETH_ALEN
  macSource : slice frame hSource ETH_ALEN = slice sent hSource ETH_ALEN
  ipSource : slice frame saddr 4 = slice sent saddr 4
  ipDest : slice frame daddr 4 = slice sent daddr 4

theorem AddressesExchanged.twice {sent frame second : List UInt8}
    (once : AddressesExchanged sent frame) (again : AddressesExchanged frame second) :
    SameAddresses sent second where
  macDest := again.macDest.trans once.macSource
  macSource := again.macSource.trans once.macDest
  ipSource := again.ipSource.trans once.ipDest
  ipDest := again.ipDest.trans once.ipSource

/-- With `ip_fast_csum` as RFC 1071 has it, a frame that holds its IP header is delivered
with a header that verifies, and sent once more it has its own addresses again. -/
theorem header_verifies {ipFastCsum : List UInt8 → UInt16} (rfc1071 : IsRfc1071 ipFastCsum)
    {skb : SkBuff} (long : 35 ≤ skb.len) (header : 5 ≤ skb.ihl)
    (whole : 14 + 4 * skb.ihl ≤ skb.len) (dev : NetDevice) :
    ∃ frame, (emulatorRxPacket ipFastCsum skb dev).2.received = dev.received ++ [frame] ∧
      ValidReply skb.frame frame ∧
      ∀ (again : SkBuff) (later : NetDevice), again.frame = frame →
        ∃ second, (emulatorRxPacket ipFastCsum again later).2.received =
            later.received ++ [second] ∧
          SameAddresses skb.frame second := by
  refine ⟨_, emulatorRxPacket_received ipFastCsum skb dev, ?_, ?_⟩
  · constructor
    case length => rw [SkBuff.frame, SkBuff.frame, length_load, length_load]; rfl
    case addresses => exact addressesExchanged ipFastCsum (by omega)
    case header =>
        have sameIhl := rewrite_ihl ipFastCsum skb
        have longEnough : 15 ≤ (skb.rewrite ipFastCsum).len := Nat.le_trans (by decide) long
        have holdsHeader : 14 + 4 * (skb.rewrite ipFastCsum).ihl ≤
            (skb.rewrite ipFastCsum).len := by
          rw [sameIhl]
          exact whole
        rw [SkBuff.ipHeader_frame _ longEnough holdsHeader, sameIhl]
        exact foldedSum_rewrite rfc1071 header
  · intro again later handedOn
    refine ⟨_, emulatorRxPacket_received ipFastCsum again later, ?_⟩
    have length : again.len = skb.len := by
      have lengths := congrArg List.length handedOn
      rwa [SkBuff.frame, SkBuff.frame, length_load, length_load] at lengths
    have once := addressesExchanged ipFastCsum (show 34 ≤ skb.len by omega)
    have twice := addressesExchanged ipFastCsum (show 34 ≤ again.len by omega)
    rw [handedOn] at twice
    exact once.twice twice

/-- The ping with options as a frame whose options hold the type byte. -/
theorem pingWithOptions_header_verifies :
    ∃ frame, (emulatorRxPacket rfc1071Csum pingWithOptions.skb virtNetInit).2.received =
        [] ++ [frame] ∧
      ValidReply pingWithOptions.skb.frame frame ∧
      ∀ (again : SkBuff) (later : NetDevice), again.frame = frame →
        ∃ second, (emulatorRxPacket rfc1071Csum again later).2.received =
            later.received ++ [second] ∧
          SameAddresses pingWithOptions.skb.frame second :=
  header_verifies isRfc1071_rfc1071Csum (by decide) (by decide) (by decide) virtNetInit

end Mini2440.VirtNet
