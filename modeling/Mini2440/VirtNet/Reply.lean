import Mini2440.VirtNet.Driver

/-!
# The replies of the virtual network card

What the frame that `emulator_rx_packet` delivers holds at every offset, and which echo
requests it answers.  The checksum covers the header with its options, but the type byte
is written behind a header without any.
-/

namespace Mini2440.VirtNet

open Memory Splice

/-! ## The frame that is delivered -/

/-- The bytes of the frame. -/
def SkBuff.frame (skb : SkBuff) : List UInt8 := load skb.data 0 skb.len

theorem SkBuff.getElem?_frame (skb : SkBuff) {offset : Nat} (inFrame : offset < skb.len) :
    skb.frame[offset]? = some (skb.data offset) := by
  rw [SkBuff.frame, getElem?_load _ _ inFrame, Nat.zero_add]

theorem SkBuff.slice_frame (skb : SkBuff) {offset count : Nat}
    (inside : offset + count ≤ skb.len) :
    slice skb.frame offset count = load skb.data offset count := by
  rw [SkBuff.frame, slice_load _ _ inside, Nat.zero_add]

/-- What `emulator_rx_packet` has made of the frame when it copies it. -/
def SkBuff.rewrite (skb : SkBuff) (ipFastCsum : List UInt8 → UInt16) : SkBuff :=
  skb.swapMac.swapIp.makeReply.rebuildCheck ipFastCsum

theorem emulatorRxPacket_received (ipFastCsum : List UInt8 → UInt16) (skb : SkBuff)
    (dev : NetDevice) :
    (emulatorRxPacket ipFastCsum skb dev).2.received =
      dev.received ++ [(skb.rewrite ipFastCsum).frame] := rfl

theorem rebuildCheck_data_other (ipFastCsum : List UInt8 → UInt16) (skb : SkBuff)
    {offset : Nat} (outside : offset < check ∨ check + 2 ≤ offset) :
    (skb.rebuildCheck ipFastCsum).data offset = skb.data offset :=
  (SkBuff.write_data_other _ outside).trans (SkBuff.write_data_other skb outside)

/-- What the frame holds once it is rewritten, the checksum apart. -/
structure Rewritten (before after : Nat → UInt8) : Prop where
  macDest : load after hDest ETH_ALEN = load before hSource ETH_ALEN
  macSource : load after hSource ETH_ALEN = load before hDest ETH_ALEN
  ipSource : load after saddr 4 = load before daddr 4
  ipDest : load after daddr 4 = load before saddr 4
  reply : after type = 0
  other : ∀ offset, 12 ≤ offset → offset < 24 ∨ 34 < offset → after offset = before offset

theorem rewritten (ipFastCsum : List UInt8 → UInt16) (skb : SkBuff) :
    Rewritten skb.data (skb.rewrite ipFastCsum).data := by
  have checked : ∀ offset, offset < 24 ∨ 26 ≤ offset →
      (skb.rewrite ipFastCsum).data offset = skb.swapMac.swapIp.makeReply.data offset :=
    fun offset outside => rebuildCheck_data_other ipFastCsum _ outside
  have typed : ∀ offset, offset < 34 ∨ 35 ≤ offset →
      skb.swapMac.swapIp.makeReply.data offset = skb.swapMac.swapIp.data offset :=
    fun offset outside => SkBuff.write_data_other skb.swapMac.swapIp outside
  have routed : ∀ offset, offset < 26 ∨ 34 ≤ offset →
      skb.swapMac.swapIp.data offset = skb.swapMac.data offset := by
    intro offset outside
    apply SkBuff.swap_data_other
    · exact outside.imp_right fun above => Nat.le_trans (by decide) above
    · exact outside.imp_left fun below => Nat.lt_trans below (by decide)
  have addressed : ∀ offset, 12 ≤ offset → skb.swapMac.data offset = skb.data offset :=
    fun offset above => skb.swap_data_other (.inr (Nat.le_trans (by decide) above)) (.inr above)
  -- the MAC addresses lie before everything that is written later
  have macs : ∀ offset count, offset + count ≤ 12 →
      load (skb.rewrite ipFastCsum).data offset count = load skb.swapMac.data offset count := by
    intro offset count inside
    apply load_congr
    intro address _ below
    rw [checked _ (by omega), typed _ (by omega), routed _ (by omega)]
  have ips : ∀ offset count, 26 ≤ offset → offset + count ≤ 34 →
      load (skb.rewrite ipFastCsum).data offset count =
        load skb.swapMac.swapIp.data offset count := by
    intro offset count above inside
    apply load_congr
    intro address _ below
    rw [checked _ (by omega), typed _ (by omega)]
  have kept : ∀ offset, 12 ≤ offset →
      load skb.swapMac.data offset 4 = load skb.data offset 4 :=
    fun offset above => load_congr fun address high _ => addressed address (by omega)
  constructor
  case macDest => exact (macs _ _ (by decide)).trans (skb.load_swap_first (by decide))
  case macSource => exact (macs _ _ (by decide)).trans (skb.load_swap_second _ _ _)
  case ipSource =>
      refine (ips _ _ (by decide) (by decide)).trans ?_
      exact (skb.swapMac.load_swap_first (by decide)).trans (kept daddr (by decide))
  case ipDest =>
      refine (ips _ _ (by decide) (by decide)).trans ?_
      exact (skb.swapMac.load_swap_second _ _ _).trans (kept saddr (by decide))
  case reply =>
      rw [checked _ (.inr (by decide))]
      exact store_head skb.swapMac.swapIp.data type 0 []
  case other =>
      intro offset above outside
      rw [checked _ (by omega), typed _ (by omega), routed _ (by omega), addressed _ above]

/-! ## The addresses -/

/-- The frame has the addresses of `sent`, source and destination exchanged. -/
structure AddressesExchanged (sent frame : List UInt8) : Prop where
  macDest : slice frame hDest ETH_ALEN = slice sent hSource ETH_ALEN
  macSource : slice frame hSource ETH_ALEN = slice sent hDest ETH_ALEN
  ipSource : slice frame saddr 4 = slice sent daddr 4
  ipDest : slice frame daddr 4 = slice sent saddr 4

theorem addressesExchanged (ipFastCsum : List UInt8 → UInt16) {skb : SkBuff}
    (long : 34 ≤ skb.len) :
    AddressesExchanged skb.frame (skb.rewrite ipFastCsum).frame := by
  have sent : ∀ offset count, offset + count ≤ 34 →
      slice skb.frame offset count = load skb.data offset count :=
    fun offset count inside => skb.slice_frame (Nat.le_trans inside long)
  have replied : ∀ offset count, offset + count ≤ 34 →
      slice (skb.rewrite ipFastCsum).frame offset count =
        load (skb.rewrite ipFastCsum).data offset count :=
    fun offset count inside => SkBuff.slice_frame _ (Nat.le_trans inside long)
  have rewritten := rewritten ipFastCsum skb
  constructor
  case macDest =>
      rw [replied _ _ (by decide), sent _ _ (by decide), rewritten.macDest]
  case macSource =>
      rw [replied _ _ (by decide), sent _ _ (by decide), rewritten.macSource]
  case ipSource =>
      rw [replied _ _ (by decide), sent _ _ (by decide), rewritten.ipSource]
  case ipDest =>
      rw [replied _ _ (by decide), sent _ _ (by decide), rewritten.ipDest]

/-! ## Echo requests -/

/-- An IPv4 ICMP echo request that the frame holds in full; `total` is the total length of
the datagram. -/
structure EchoRequest where
  skb : SkBuff
  total : Nat
  ipv4 : skb.data 12 = 0x08 ∧ skb.data 13 = 0x00
  version : skb.data 14 >>> 4 = 4
  header : 5 ≤ skb.ihl
  totLen : (skb.data 16).toNat * 256 + (skb.data 17).toNat = total
  icmp : skb.data 23 = 1
  echo : skb.data (14 + 4 * skb.ihl) = 8 ∧ skb.data (15 + 4 * skb.ihl) = 0
  message : 4 * skb.ihl + 8 ≤ total
  inside : 14 + total ≤ skb.len

/-- The frame is the reply to the request: type 0, the addresses exchanged, and every byte
as it was sent but for these and the header checksum. -/
structure AnswersPing (request : SkBuff) (frame : List UInt8) : Prop where
  length : frame.length = request.len
  reply : frame[14 + 4 * request.ihl]? = some 0
  addresses : AddressesExchanged request.frame frame
  rest : ∀ offset < request.len, 12 ≤ offset → offset < 24 ∨ 34 ≤ offset →
    offset ≠ 14 + 4 * request.ihl → frame[offset]? = some (request.data offset)

/-- The card answers an echo request exactly when its header has no options. -/
theorem answersPing_iff (ipFastCsum : List UInt8 → UInt16) (request : EchoRequest)
    (dev : NetDevice) :
    ∃ frame, (emulatorRxPacket ipFastCsum request.skb dev).2.received =
        dev.received ++ [frame] ∧
      (AnswersPing request.skb frame ↔ request.skb.ihl = 5) := by
  refine ⟨_, emulatorRxPacket_received ipFastCsum request.skb dev, ?_⟩
  have header := request.header
  have message := request.message
  have inside := request.inside
  have rewritten := rewritten ipFastCsum request.skb
  have delivered : ∀ offset < request.skb.len,
      (request.skb.rewrite ipFastCsum).frame[offset]? =
        some ((request.skb.rewrite ipFastCsum).data offset) :=
    fun offset inFrame => SkBuff.getElem?_frame _ inFrame
  constructor
  · intro answers
    by_contra options
    have sent : (request.skb.rewrite ipFastCsum).data (14 + 4 * request.skb.ihl) = 8 := by
      rw [rewritten.other _ (by omega) (by omega)]
      exact request.echo.1
    have reply := answers.reply
    rw [delivered _ (by omega), sent] at reply
    exact absurd reply (by decide)
  · intro plain
    constructor
    case length => exact length_load _ _ _
    case reply =>
        rw [delivered _ (by omega), plain]
        exact congrArg some rewritten.reply
    case addresses => exact addressesExchanged ipFastCsum (by omega)
    case rest =>
        intro offset inFrame above unchecked untyped
        rw [delivered _ inFrame, rewritten.other _ above (by omega)]

/-- A ping with one word of options. -/
def pingWithOptions : EchoRequest where
  skb := .handed (fun offset => [
    0x08, 0x89, 0x89, 0x89, 0x89, 0x12, 0x08, 0x89, 0x89, 0x89, 0x89, 0x11, 0x08, 0x00,
    0x46, 0x00, 0x00, 0x20, 0x12, 0x34, 0x00, 0x00, 0x40, 0x01, 0xe2, 0x52,
    0xc0, 0xa8, 0x01, 0x02, 0xc0, 0xa8, 0x01, 0x03, 0x01, 0x01, 0x01, 0x00,
    0x08, 0x00, 0xf7, 0xfd, 0x00, 0x01, 0x00, 0x01].getD offset 0) 46
  total := 32
  ipv4 := by decide
  version := by decide
  header := by decide
  totLen := by decide
  icmp := by decide
  echo := by decide
  message := by decide
  inside := by decide

/-- The ping with options comes back as a request. -/
theorem pingWithOptions_unanswered :
    ¬ ∃ frame, (emulatorRxPacket rfc1071Csum pingWithOptions.skb virtNetInit).2.received =
        [frame] ∧ AnswersPing pingWithOptions.skb frame := by
  rintro ⟨frame, received, answers⟩
  have type : frame[38]? = some 8 := by
    obtain rfl := List.singleton_injective received
    decide
  exact absurd (type.symm.trans answers.reply) (by decide)

end Mini2440.VirtNet
