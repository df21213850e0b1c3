import LibSBus.Basic
import LibSBus.Lib.Decimal

/-!
The text of an address. `SContacts` files its contacts under such a text, so
two addresses must not share one: the decimal parts contain neither the dot nor
the colon that separate them.
-/

namespace LibSBus

open Lib

/-- Byte `i` of an address in host order, as `ptr[i]` reads it on a
little-endian host. -/
def ipByte (ip : IP) (i : Nat) : Nat := (ip.extractLsb' (8 * i) 8).toNat

/-- `sockaddr_int2ip`: `sprintf(str,"%u.%u.%u.%u",ptr[3],ptr[2],ptr[1],ptr[0])`. -/
def int2ip (ip : IP) : CString :=
  decimal (ipByte ip 3) ++ 46 :: (decimal (ipByte ip 2) ++ 46 ::
    (decimal (ipByte ip 1) ++ 46 :: decimal (ipByte ip 0)))

/-- `MAX_IP_ADDR_STR`, the size of the `ipStr` and `ipstr` that `int2ip` writes. -/
def maxIpAddrStr : Nat := 16

/-- The size of the `portStr` and `portstr` that the port is written to. -/
def portStrSize : Nat := 7

/-- `SPeerInfo::ipnport2addr`: the dotted address, a colon and the port. -/
def ipnport2addr (ip : IP) (port : Port) : CString :=
  int2ip ip ++ 58 :: decimal port.toNat

/-- The name `SBus::setDefaultSafeName` gives: `sbus://` and the address. -/
def safeName (ip : IP) (port : Port) : CString :=
  [115, 98, 117, 115, 58, 47, 47] ++ (int2ip ip ++ 58 :: decimal port.toNat)

theorem ip_eq_of_bytes {ip ip' : IP} (h : ∀ i < 4, ipByte ip i = ipByte ip' i) : ip = ip' := by
  have h0 := h 0 (by decide)
  have h1 := h 1 (by decide)
  have h2 := h 2 (by decide)
  have h3 := h 3 (by decide)
  have small := ip.isLt
  have small' := ip'.isLt
  simp only [ipByte, BitVec.extractLsb'_toNat, Nat.shiftRight_eq_div_pow] at h0 h1 h2 h3
  apply BitVec.eq_of_toNat_eq
  omega

private theorem dot_not_mem (n : Nat) : (46 : UInt8) ∉ decimal n :=
  not_mem_decimal n (by decide)

private theorem colon_not_mem (n : Nat) : (58 : UInt8) ∉ decimal n :=
  not_mem_decimal n (by decide)

theorem int2ip_injective : Function.Injective int2ip := by
  intro ip ip' same
  simp only [int2ip, append_separator_inj (dot_not_mem _) (dot_not_mem _)] at same
  obtain ⟨h3, h2, h1, h0⟩ := same
  refine ip_eq_of_bytes fun i hi => decimal_injective ?_
  match i, hi with
  | 0, _ => exact h0
  | 1, _ => exact h1
  | 2, _ => exact h2
  | 3, _ => exact h3

theorem colon_not_mem_int2ip (ip : IP) : (58 : UInt8) ∉ int2ip ip := by
  simp [int2ip, colon_not_mem]

theorem ipnport2addr_inj {ip ip' : IP} {port port' : Port} :
    ipnport2addr ip port = ipnport2addr ip' port' ↔ ip = ip' ∧ port = port' := by
  rw [ipnport2addr, ipnport2addr,
    append_separator_inj (colon_not_mem_int2ip ip) (colon_not_mem_int2ip ip'),
    int2ip_injective.eq_iff, decimal_injective.eq_iff, BitVec.toNat_inj]

theorem safeName_inj {ip ip' : IP} {port port' : Port} :
    safeName ip port = safeName ip' port' ↔ ip = ip' ∧ port = port' := by
  rw [safeName, safeName, List.append_cancel_left_eq]
  exact ipnport2addr_inj

theorem ipByte_lt (ip : IP) (i : Nat) : ipByte ip i < 256 :=
  (ip.extractLsb' (8 * i) 8).isLt

/-- Four parts of at most three digits, three dots and the final zero byte. -/
theorem length_int2ip (ip : IP) : (int2ip ip).length + 1 ≤ maxIpAddrStr := by
  have part : ∀ i, (decimal (ipByte ip i)).length ≤ 3 := fun i =>
    length_decimal_le (by decide) ((ipByte_lt ip i).trans (by decide))
  have h0 := part 0
  have h1 := part 1
  have h2 := part 2
  have h3 := part 3
  simp only [int2ip, List.length_append, List.length_cons, maxIpAddrStr]
  omega

theorem length_portStr (port : Port) : (decimal port.toNat).length + 1 ≤ portStrSize := by
  have digits : (decimal port.toNat).length ≤ 5 :=
    length_decimal_le (by decide) (port.isLt.trans (by decide))
  rw [portStrSize]
  omega

/-- No two addresses share a rendering, and none outgrows its buffer. -/
theorem renderings_unique (ip ip' : IP) (port port' : Port) :
    (ipnport2addr ip port = ipnport2addr ip' port' ↔ ip = ip' ∧ port = port') ∧
    (safeName ip port = safeName ip' port' ↔ ip = ip' ∧ port = port') ∧
    (int2ip ip).length + 1 ≤ maxIpAddrStr ∧
    (decimal port.toNat).length + 1 ≤ portStrSize :=
  ⟨ipnport2addr_inj, safeName_inj, length_int2ip ip, length_portStr port⟩

end LibSBus
