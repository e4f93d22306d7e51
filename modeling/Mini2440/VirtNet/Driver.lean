import Mini2440.Lib.Memory
import Mini2440.Lib.OnesComplement

/-!
# The virtual network card

The driver `16th-virt_net/virt_net.c`.  A frame that is sent comes back at once as if it
had been received: `emulator_rx_packet` exchanges the addresses, makes the ICMP request a
reply, renews the checksum of the IP header and hands a copy to `netif_rx`.  Every byte
that the driver reads or writes through `skb->data` is recorded.
-/

namespace Mini2440.VirtNet

open Memory OnesComplement

/-! ## The headers -/

/-- The bytes of a MAC address. -/
def ETH_ALEN : Nat := 6

/-- `sizeof(struct ethhdr)`. -/
def ethhdrSize : Nat := 14

/-- `sizeof(struct iphdr)`, the header without options. -/
def iphdrSize : Nat := 20

/-- `ethhdr->h_dest`, as an offset in the frame. -/
def hDest : Nat := 0

/-- `ethhdr->h_source`, as an offset in the frame. -/
def hSource : Nat := 6

/-- `ih->check`. -/
def check : Nat := ethhdrSize + 10

/-- `&ih->saddr`. -/
def saddr : Nat := ethhdrSize + 12

/-- `&ih->daddr`. -/
def daddr : Nat := ethhdrSize + 16

/-- `skb->data + sizeof(struct ethhdr) + sizeof(struct iphdr)`. -/
def type : Nat := ethhdrSize + iphdrSize

/-- The bit field `ihl` of the first byte of the header, its number of 32-bit words. -/
def ihlOf (byte : UInt8) : Nat := (byte &&& 0x0f).toNat

/-- The bytes of a halfword in memory. -/
def halfwordBytes (halfword : UInt16) : List UInt8 :=
  [halfword.toUInt8, (halfword >>> 8).toUInt8]

/-! ## The frame -/

/-- A socket buffer: `len` bytes of frame from `data` on, whatever memory comes after them,
and the offsets that were read or written so far. -/
structure SkBuff where
  data : Nat → UInt8
  len : Nat
  touched : List Nat

namespace SkBuff

/-- A frame as the network layer hands it over. -/
def handed (data : Nat → UInt8) (len : Nat) : SkBuff := ⟨data, len, []⟩

/-- `ih->ihl`. -/
def ihl (skb : SkBuff) : Nat := ihlOf (skb.data ethhdrSize)

/-- Some bytes are read or written. -/
def touch (skb : SkBuff) (offset count : Nat) : SkBuff :=
  { skb with touched := skb.touched ++ List.range' offset count }

/-- The bytes of a field, which are touched. -/
def read (skb : SkBuff) (offset count : Nat) : List UInt8 × SkBuff :=
  (load skb.data offset count, skb.touch offset count)

/-- A field replaced, which is touched. -/
def write (skb : SkBuff) (offset : Nat) (bytes : List UInt8) : SkBuff :=
  { skb.touch offset bytes.length with data := store skb.data offset bytes }

/-- Two fields exchanged over a temporary copy of the first. -/
def swap (skb : SkBuff) (first second count : Nat) : SkBuff :=
  let (tmp, skb) := skb.read first count
  let (other, skb) := skb.read second count
  let skb := skb.write first other
  skb.write second tmp

/-- The destination and the source MAC address exchanged. -/
def swapMac (skb : SkBuff) : SkBuff := skb.swap hDest hSource ETH_ALEN

/-- The source and the destination IP address exchanged. -/
def swapIp (skb : SkBuff) : SkBuff := skb.swap saddr daddr 4

/-- `*type = 0`. -/
def makeReply (skb : SkBuff) : SkBuff := skb.write type [0]

/-- `ih->check = 0; ih->check = ip_fast_csum((unsigned char *)ih, ih->ihl)`.  That the sum
reads `ihl` words is how `ip_fast_csum` is documented; the routine for ARM is not in the
driver, and reads more than them where the nibble is below 5. -/
def rebuildCheck (ipFastCsum : List UInt8 → UInt16) (skb : SkBuff) : SkBuff :=
  let skb := skb.write check [0, 0]
  let ihl := skb.ihl
  let skb := skb.touch ethhdrSize 1
  let (header, skb) := skb.read ethhdrSize (4 * ihl)
  skb.write check (halfwordBytes (ipFastCsum header))

end SkBuff

/-! ## The device -/

/-- `struct net_device_stats`, as far as the driver counts. -/
structure Stats where
  rxPackets : UInt32
  rxBytes : UInt32
  txPackets : UInt32
  txBytes : UInt32
  deriving DecidableEq, Repr

/-- `st_p_vnet_dev`: its queue, its counters, and what was given to `netif_rx`. -/
structure NetDevice where
  queueStopped : Bool
  stats : Stats
  received : List (List UInt8)
  deriving DecidableEq, Repr

/-- The device that `virt_net_init` registers. -/
def virtNetInit : NetDevice := ⟨false, ⟨0, 0, 0, 0⟩, []⟩

/-- `emulator_rx_packet`; the copy is as long as the frame. -/
def emulatorRxPacket (ipFastCsum : List UInt8 → UInt16) (skb : SkBuff) (dev : NetDevice) :
    SkBuff × NetDevice :=
  let skb := skb.swapMac
  let skb := skb.swapIp
  let skb := skb.makeReply
  let skb := skb.rebuildCheck ipFastCsum
  let (rxSkb, skb) := skb.read 0 skb.len
  let dev := { dev with stats := { dev.stats with
    rxPackets := dev.stats.rxPackets + 1
    rxBytes := dev.stats.rxBytes + UInt32.ofNat skb.len } }
  (skb, { dev with received := dev.received ++ [rxSkb] })

/-- `virt_net_send_packet`, which always returns `NETDEV_TX_OK`.  It counts `skb->len` after
`dev_kfree_skb(skb)`; here the length is what it was. -/
def virtNetSendPacket (ipFastCsum : List UInt8 → UInt16) (skb : SkBuff) (dev : NetDevice) :
    SkBuff × NetDevice :=
  let dev := { dev with queueStopped := true }
  let (skb, dev) := emulatorRxPacket ipFastCsum skb dev
  let dev := { dev with queueStopped := false }
  (skb, { dev with stats := { dev.stats with
    txPackets := dev.stats.txPackets + 1
    txBytes := dev.stats.txBytes + UInt32.ofNat skb.len } })

/-! ## The checksum of the kernel -/

/-- The 32-bit words of a header as a little-endian processor reads them. -/
def leWords : List UInt8 → List Nat
  | first :: second :: third :: fourth :: rest =>
      (first.toNat + 256 * second.toNat + 65536 * (third.toNat + 256 * fourth.toNat)) ::
        leWords rest
  | _ => []

/-- What `ip_fast_csum` is documented to compute: the checksum of RFC 1071 over the words. -/
def IsRfc1071 (ipFastCsum : List UInt8 → UInt16) : Prop :=
  ∀ header, 4 ∣ header.length →
    (ipFastCsum header).toNat = checksum 65536 (leWords header)

/-- `ip_fast_csum` by its definition. -/
def rfc1071Csum (header : List UInt8) : UInt16 :=
  UInt16.ofNat (checksum 65536 (leWords header))

theorem isRfc1071_rfc1071Csum : IsRfc1071 rfc1071Csum := by
  intro header _
  have below : checksum 65536 (leWords header) < 2 ^ 16 := by
    unfold checksum
    omega
  exact (UInt16.toNat_ofNat').trans (Nat.mod_eq_of_lt below)

/-! ## What the steps do to the bytes -/

namespace SkBuff

theorem write_data_other (skb : SkBuff) {offset other : Nat} {bytes : List UInt8}
    (outside : other < offset ∨ offset + bytes.length ≤ other) :
    (skb.write offset bytes).data other = skb.data other :=
  store_of_outside skb.data outside

theorem load_swap_first (skb : SkBuff) {first second count : Nat}
    (disjoint : first + count ≤ second) :
    load (skb.swap first second count).data first count = load skb.data second count := by
  refine (load_store_disjoint _ (.inl disjoint)).trans ?_
  exact load_store_self _ _ (length_load _ _ _)

theorem load_swap_second (skb : SkBuff) (first second count : Nat) :
    load (skb.swap first second count).data second count = load skb.data first count :=
  load_store_self _ _ (length_load _ _ _)

theorem swap_data_other (skb : SkBuff) {first second count offset : Nat}
    (notFirst : offset < first ∨ first + count ≤ offset)
    (notSecond : offset < second ∨ second + count ≤ offset) :
    (skb.swap first second count).data offset = skb.data offset := by
  refine (store_of_outside _ ?_).trans (store_of_outside _ ?_)
  · rwa [length_load]
  · rwa [length_load]

/-! No step before the checksum is computed writes the length nibble. -/

theorem ihl_swapMac (skb : SkBuff) : skb.swapMac.ihl = skb.ihl :=
  congrArg ihlOf (skb.swap_data_other (.inr (by decide)) (.inr (by decide)))

theorem ihl_swapIp (skb : SkBuff) : skb.swapIp.ihl = skb.ihl :=
  congrArg ihlOf (skb.swap_data_other (.inl (by decide)) (.inl (by decide)))

theorem ihl_makeReply (skb : SkBuff) : skb.makeReply.ihl = skb.ihl :=
  congrArg ihlOf (skb.write_data_other (.inl (by decide)))

theorem ihl_clearCheck (skb : SkBuff) : (skb.write check [0, 0]).ihl = skb.ihl :=
  congrArg ihlOf (skb.write_data_other (.inl (by decide)))

end SkBuff

end Mini2440.VirtNet
