import Maskura.Lib.Network

/-!
The addresses that storage endpoints may not resolve to. The forbidden ranges
are those of the IANA registries that are not global, with a few global blocks
inside them taken out again. An IPv6 address can carry an IPv4 address that a
translator on the way sends the packet to; of the standard forms only the
well-known NAT64 block is taken out of the forbidden ranges.
-/

namespace Maskura.Backend

open Maskura.Lib

inductive IpAddr
  | v4 (bits : BitVec 32)
  | v6 (bits : BitVec 128)
  deriving DecidableEq, Repr

/-- `Ipv4Addr::new`. -/
def ipv4 (a b c d : BitVec 8) : BitVec 32 := a ++ b ++ c ++ d

/-- `Ipv6Addr::new`. -/
def ipv6 (a b c d e f g h : BitVec 16) : BitVec 128 := a ++ b ++ c ++ d ++ e ++ f ++ g ++ h

/-- `::ffff:0:0/96`. -/
def ipv4Mapped : Block 128 := ⟨ipv6 0 0 0 0 0 0xffff 0 0, 96, by decide⟩

def isIpv4Mapped : IpAddr → Bool
  | .v4 _ => false
  | .v6 bits => ipv4Mapped.contains bits

def ipv4ForbiddenRanges : List (Block 32) :=
  [⟨ipv4 0 0 0 0, 8, by decide⟩,
    ⟨ipv4 10 0 0 0, 8, by decide⟩,
    ⟨ipv4 100 64 0 0, 10, by decide⟩,
    ⟨ipv4 127 0 0 0, 8, by decide⟩,
    ⟨ipv4 169 254 0 0, 16, by decide⟩,
    ⟨ipv4 172 16 0 0, 12, by decide⟩,
    ⟨ipv4 192 0 0 0, 24, by decide⟩,
    ⟨ipv4 192 0 2 0, 24, by decide⟩,
    ⟨ipv4 192 88 99 2, 32, by decide⟩,
    ⟨ipv4 192 168 0 0, 16, by decide⟩,
    ⟨ipv4 198 18 0 0, 15, by decide⟩,
    ⟨ipv4 198 51 100 0, 24, by decide⟩,
    ⟨ipv4 203 0 113 0, 24, by decide⟩,
    ⟨ipv4 224 0 0 0, 4, by decide⟩,
    ⟨ipv4 240 0 0 0, 4, by decide⟩]

def ipv4PublicExceptions : List (Block 32) :=
  [⟨ipv4 192 0 0 9, 32, by decide⟩, ⟨ipv4 192 0 0 10, 32, by decide⟩]

def ipv6ForbiddenRanges : List (Block 128) :=
  -- IANA reserved address-space allocations
  [⟨ipv6 0 0 0 0 0 0 0 0, 8, by decide⟩,
    ⟨ipv6 0x0100 0 0 0 0 0 0 0, 8, by decide⟩,
    ⟨ipv6 0x0200 0 0 0 0 0 0 0, 7, by decide⟩,
    ⟨ipv6 0x0400 0 0 0 0 0 0 0, 6, by decide⟩,
    ⟨ipv6 0x0800 0 0 0 0 0 0 0, 5, by decide⟩,
    ⟨ipv6 0x1000 0 0 0 0 0 0 0, 4, by decide⟩,
    ⟨ipv6 0x4000 0 0 0 0 0 0 0, 3, by decide⟩,
    ⟨ipv6 0x6000 0 0 0 0 0 0 0, 3, by decide⟩,
    ⟨ipv6 0x8000 0 0 0 0 0 0 0, 3, by decide⟩,
    ⟨ipv6 0xa000 0 0 0 0 0 0 0, 3, by decide⟩,
    ⟨ipv6 0xc000 0 0 0 0 0 0 0, 3, by decide⟩,
    ⟨ipv6 0xe000 0 0 0 0 0 0 0, 4, by decide⟩,
    ⟨ipv6 0xf000 0 0 0 0 0 0 0, 5, by decide⟩,
    ⟨ipv6 0xf800 0 0 0 0 0 0 0, 6, by decide⟩,
    ⟨ipv6 0xfc00 0 0 0 0 0 0 0, 7, by decide⟩,
    ⟨ipv6 0xfe00 0 0 0 0 0 0 0, 9, by decide⟩,
    ⟨ipv6 0xfe80 0 0 0 0 0 0 0, 10, by decide⟩,
    ⟨ipv6 0xfec0 0 0 0 0 0 0 0, 10, by decide⟩,
    ⟨ipv6 0xff00 0 0 0 0 0 0 0, 8, by decide⟩,
    -- entries of the special-purpose registry that are not global
    ⟨ipv6 0 0 0 0 0 0xffff 0 0, 96, by decide⟩,
    ⟨ipv6 0x0064 0xff9b 1 0 0 0 0 0, 48, by decide⟩,
    ⟨ipv6 0x0100 0 0 0 0 0 0 0, 64, by decide⟩,
    ⟨ipv6 0x0100 0 0 1 0 0 0 0, 64, by decide⟩,
    ⟨ipv6 0x2001 0 0 0 0 0 0 0, 23, by decide⟩,
    ⟨ipv6 0x2001 0x0db8 0 0 0 0 0 0, 32, by decide⟩,
    ⟨ipv6 0x2002 0 0 0 0 0 0 0, 16, by decide⟩,
    ⟨ipv6 0x3fff 0 0 0 0 0 0 0, 20, by decide⟩,
    ⟨ipv6 0x5f00 0 0 0 0 0 0 0, 16, by decide⟩]

def ipv6PublicExceptions : List (Block 128) :=
  [⟨ipv6 0x0064 0xff9b 0 0 0 0 0 0, 96, by decide⟩,
    ⟨ipv6 0x2001 1 0 0 0 0 0 1, 128, by decide⟩,
    ⟨ipv6 0x2001 1 0 0 0 0 0 2, 128, by decide⟩,
    ⟨ipv6 0x2001 1 0 0 0 0 0 3, 128, by decide⟩,
    ⟨ipv6 0x2001 3 0 0 0 0 0 0, 32, by decide⟩,
    ⟨ipv6 0x2001 4 0x0112 0 0 0 0 0, 48, by decide⟩,
    ⟨ipv6 0x2001 0x0020 0 0 0 0 0 0, 28, by decide⟩,
    ⟨ipv6 0x2001 0x0030 0 0 0 0 0 0, 28, by decide⟩]

def isForbiddenEndpointIp : IpAddr → Bool
  | .v4 bits => inRanges bits ipv4ForbiddenRanges && !inRanges bits ipv4PublicExceptions
  | .v6 bits => inRanges bits ipv6ForbiddenRanges && !inRanges bits ipv6PublicExceptions

/-! ### Addresses inside addresses -/

/-- IPv4-compatible addresses, `::/96`. -/
def ipv4Compatible : Block 128 := ⟨ipv6 0 0 0 0 0 0 0 0, 96, by decide⟩

/-- The well-known NAT64 block, `64:ff9b::/96`. -/
def nat64WellKnown : Block 128 := ⟨ipv6 0x0064 0xff9b 0 0 0 0 0 0, 96, by decide⟩

/-- The local NAT64 block, `64:ff9b:1::/48`. -/
def nat64Local : Block 128 := ⟨ipv6 0x0064 0xff9b 1 0 0 0 0 0, 48, by decide⟩

/-- 6to4, `2002::/16`. -/
def sixToFour : Block 128 := ⟨ipv6 0x2002 0 0 0 0 0 0 0, 16, by decide⟩

/-- The last 32 bits. -/
def lastBits (ip : BitVec 128) : BitVec 32 := ip.extractLsb' 0 32

/-- A form in which an IPv6 address carries an IPv4 address: the block that
marks the form, and where the IPv4 address stands. -/
structure TranslationForm where
  block : Block 128
  embedded : BitVec 128 → BitVec 32

/-- The standard forms. Under a leading part of 48 bits the IPv4 address goes
around the octet of the bits 64 to 71, which is kept free. -/
def translationForms : List TranslationForm :=
  [⟨ipv4Compatible, lastBits⟩,
    ⟨nat64WellKnown, lastBits⟩,
    ⟨nat64Local, fun ip => ip.extractLsb' 64 16 ++ ip.extractLsb' 40 16⟩,
    ⟨sixToFour, fun ip => ip.extractLsb' 80 32⟩]

/-- The IPv4 addresses that an address carries. -/
def carried : IpAddr → List (BitVec 32)
  | .v4 _ => []
  | .v6 bits => (translationForms.filter (·.block.contains bits)).map (·.embedded bits)

/-- The hosts that a packet to the address can end at. -/
def leadsTo (ip : IpAddr) : List IpAddr := ip :: (carried ip).map .v4

/-- The address is a forbidden IPv4 address behind the well-known NAT64 block. -/
def TranslatesForbidden : IpAddr → Prop
  | .v4 _ => False
  | .v6 bits => nat64WellKnown.contains bits = true ∧
      isForbiddenEndpointIp (.v4 (lastBits bits)) = true

instance : DecidablePred TranslatesForbidden
  | .v4 _ => inferInstanceAs (Decidable False)
  | .v6 _ => inferInstanceAs (Decidable (_ ∧ _))

/-- A block inside the forbidden ranges and apart from the exceptions has only
forbidden addresses. -/
theorem isForbidden_of_contains {block : Block 128} {bits : BitVec 128}
    (hcovers : ipv6ForbiddenRanges.any (·.covers block) = true)
    (hdisjoint : ipv6PublicExceptions.all (block.disjoint ·) = true)
    (h : block.contains bits = true) : isForbiddenEndpointIp (.v6 bits) = true := by
  rw [isForbiddenEndpointIp, inRanges_of_covers hcovers h, not_inRanges_of_disjoint hdisjoint h]
  rfl

/-- Of the forms only the well-known NAT64 block has addresses that are not
forbidden themselves. -/
theorem carried_of_not_forbidden {bits : BitVec 128}
    (h : isForbiddenEndpointIp (.v6 bits) = false) :
    carried (.v6 bits) = if nat64WellKnown.contains bits then [lastBits bits] else [] := by
  have houtside : ∀ block : Block 128, ipv6ForbiddenRanges.any (·.covers block) = true →
      ipv6PublicExceptions.all (block.disjoint ·) = true → block.contains bits = false := by
    intro block hcovers hdisjoint
    by_contra hin
    rw [Bool.not_eq_false] at hin
    rw [isForbidden_of_contains hcovers hdisjoint hin] at h
    exact Bool.noConfusion h
  have hcompatible := houtside ipv4Compatible (by decide) (by decide)
  have hlocal := houtside nat64Local (by decide) (by decide)
  have hsix := houtside sixToFour (by decide) (by decide)
  by_cases hnat : nat64WellKnown.contains bits <;>
    simp [carried, translationForms, hcompatible, hlocal, hsix, hnat]

/-- An address that is not forbidden itself leads to forbidden hosts in one
case only. -/
theorem leadsTo_allowed_iff {ip : IpAddr} (h : isForbiddenEndpointIp ip = false) :
    (∀ host ∈ leadsTo ip, isForbiddenEndpointIp host = false) ↔ ¬ TranslatesForbidden ip := by
  cases ip with
  | v4 bits => simp [leadsTo, carried, TranslatesForbidden, h]
  | v6 bits =>
      rw [leadsTo, carried_of_not_forbidden h]
      by_cases hnat : nat64WellKnown.contains bits <;> simp [TranslatesForbidden, hnat, h]

end Maskura.Backend
