/-
**Addresses as the dialer gets them.**

An address of a request is four bytes, sixteen bytes or a name; the dialer gets it as a text, with the
port behind a colon. Texts are lists of their bytes.

* `ipString`, `joinHostPort` — the texts of addresses and of what is dialled;
* `joinHostPort_inj` — that what is dialled is for one host and port only.
-/

import Mathlib

namespace Atterm.Socks5

def ascii (text : List Char) : List UInt8 := text.map Char.toUInt8

/-- `strconv.Itoa` -/
def itoa (number : ℕ) : List UInt8 := ascii (Nat.toDigits 10 number)

def hexText (number : ℕ) : List UInt8 := ascii (Nat.toDigits 16 number)

def dot : UInt8 := 46
def colon : UInt8 := 58

def ipv4String (raw : List UInt8) : List UInt8 := [dot].intercalate (raw.map fun byte => itoa byte.toNat)

/-- The numbers that pairs of bytes write. -/
def groupsOf : List UInt8 → List ℕ
  | high :: low :: rest => (high.toNat * 256 + low.toNat) :: groupsOf rest
  | _ => []

def zerosEnd (groups : List ℕ) (start : ℕ) : ℕ := start + ((groups.drop start).takeWhile (· = 0)).length

/-- The first of the longest runs of at least two zeros. -/
def longestZeros (groups : List ℕ) : ℕ × ℕ :=
  (List.range 8).foldl (fun best start =>
    if 2 ≤ zerosEnd groups start - start ∧ best.2 - best.1 < zerosEnd groups start - start then
      (start, zerosEnd groups start)
    else best) (255, 255)

/-- The text of sixteen bytes: a run of zeros is left out. -/
def ipv6String (raw : List UInt8) : List UInt8 :=
  let groups := groupsOf raw
  let zeros := longestZeros groups
  if zeros.1 = 255 then [colon].intercalate (groups.map hexText)
  else
    [colon].intercalate ((groups.take zeros.1).map hexText) ++ [colon, colon] ++
      [colon].intercalate ((groups.drop zeros.2).map hexText)

/-- The bytes in front of an IPv4 address that is written as an IPv6 address. -/
def v4InV6Front : List UInt8 := [0, 0, 0, 0, 0, 0, 0, 0, 0, 0, 255, 255]

/-- `net.IP.String`, for four or sixteen bytes -/
def ipString (raw : List UInt8) : List UInt8 :=
  if raw.length = 4 then ipv4String raw
  else if raw.take 12 = v4InV6Front then ipv4String (raw.drop 12)
  else ipv6String raw

/-- `net.JoinHostPort` -/
def joinHostPort (host port : List UInt8) : List UInt8 :=
  if colon ∈ host then [91] ++ host ++ [93, colon] ++ port else host ++ [colon] ++ port

/-! ### What is dialled -/

theorem toUInt8_toNat_of_isDigit {char : Char} (digit : char.isDigit = true) :
    48 ≤ char.toNat ∧ char.toNat ≤ 57 ∧ char.toUInt8.toNat = char.toNat := by
  have range : 48 ≤ char.toNat ∧ char.toNat ≤ 57 := Char.isDigit_iff_toNat.mp digit
  refine ⟨range.1, range.2, ?_⟩
  show char.toNat % 256 = char.toNat
  exact Nat.mod_eq_of_lt (by omega)

theorem itoa_injective : Function.Injective itoa := by
  have read (number : ℕ) : (itoa number).map (fun byte => Char.ofNat byte.toNat) =
      Nat.toDigits 10 number := by
    rw [itoa, ascii, List.map_map]
    refine (List.map_congr_left fun char inside => ?_).trans (List.map_id _)
    have digit : char.isDigit = true := Nat.isDigit_of_mem_toDigits (by decide) (by decide) inside
    rw [Function.comp_apply, (toUInt8_toNat_of_isDigit digit).2.2]
    exact Char.ofNat_toNat char
  intro first second same
  calc first = Nat.ofDigitChars 10 (Nat.toDigits 10 first) 0 := Nat.ofDigitChars_ten_toDigits.symm
    _ = Nat.ofDigitChars 10 (Nat.toDigits 10 second) 0 := by rw [← read, ← read, same]
    _ = second := Nat.ofDigitChars_ten_toDigits

theorem colon_notMem_itoa (number : ℕ) : colon ∉ itoa number := by
  intro inside
  obtain ⟨char, inside, same⟩ := List.mem_map.mp inside
  have digit : char.isDigit = true := Nat.isDigit_of_mem_toDigits (by decide) (by decide) inside
  have read := toUInt8_toNat_of_isDigit digit
  rw [same] at read
  exact absurd read.2.1 (read.2.2 ▸ by decide)

theorem append_colon_inj {front front' back back' : List UInt8} (plain : colon ∉ back)
    (plain' : colon ∉ back') (same : front ++ colon :: back = front' ++ colon :: back') :
    front = front' ∧ back = back' := by
  rcases List.append_eq_append_iff.mp same with ⟨between, rfl, split⟩ | ⟨between, rfl, split⟩
  · cases between with
    | nil => exact ⟨(List.append_nil _).symm, (List.cons.inj split).2⟩
    | cons byte between =>
      have inside : colon ∈ back := (List.cons.inj split).2 ▸ List.mem_append_right _ List.mem_cons_self
      exact absurd inside plain
  · cases between with
    | nil => exact ⟨List.append_nil _, (List.cons.inj split).2.symm⟩
    | cons byte between =>
      have inside : colon ∈ back' := (List.cons.inj split).2 ▸ List.mem_append_right _ List.mem_cons_self
      exact absurd inside plain'

/-- **What is dialled is for one host and port only.** -/
theorem joinHostPort_inj {host host' : List UInt8} {port port' : ℕ}
    (same : joinHostPort host (itoa port) = joinHostPort host' (itoa port')) :
    host = host' ∧ port = port' := by
  have parted (host : List UInt8) (port : ℕ) : joinHostPort host (itoa port) =
      (if colon ∈ host then [91] ++ host ++ [93] else host) ++ colon :: itoa port := by
    rw [joinHostPort]
    split
    · rw [List.append_assoc _ [93]]
      exact List.append_assoc ([91] ++ host) [93, colon] (itoa port)
    · exact List.append_assoc host [colon] (itoa port)
  rw [parted, parted] at same
  obtain ⟨hosts, ports⟩ := append_colon_inj (colon_notMem_itoa port) (colon_notMem_itoa port') same
  refine ⟨?_, itoa_injective ports⟩
  split_ifs at hosts with bracketed bracketed' bracketed'
  · exact List.append_cancel_left (List.append_cancel_right hosts)
  · refine absurd ?_ bracketed'
    rw [← hosts]
    exact List.mem_append_left _ (List.mem_append_right _ bracketed)
  · refine absurd ?_ bracketed
    rw [hosts]
    exact List.mem_append_left _ (List.mem_append_right _ bracketed')
  · exact hosts

example : ipString [0x20, 0x01, 0x0d, 0xb8, 0, 0, 0, 0, 0, 1, 0, 0, 0, 0, 0, 1] =
    ascii "2001:db8::1:0:0:1".toList := by decide

end Atterm.Socks5
