import DpdkRouter.Loop
import DpdkRouter.CString
import DpdkRouter.Basic

/-!
The string parsers of `utils/utils.c`. A string argument is a buffer of
characters (`CStr`); `str + i` is the buffer with its first `i` characters
dropped, and the in-place writes `addr_str[end_idx] = ...` are `List.set`.
`ipv4_addr_from_str` returns its status with the buffer as it leaves it and
the value of `*addr` afterwards. Its loop over the first three groups is a
`forRange` whose error carries the buffer at the `return -1`.
`mac_addr_from_str` is built the same way; it writes each byte of `*mac` as
it reads the group, so a failed call leaves the bytes of the groups before.
-/

namespace DpdkRouter.Utils

open ForLoop

def ipv4GroupLen : ℕ := 3
def ipv4NumGroups : ℕ := 4
def ipv4NumDots : ℕ := ipv4NumGroups - 1
def ipv4MinGroupVal : Int32 := 0x00
def ipv4MaxGroupVal : Int32 := 0xff
def ipv4MaxAddrLen : ℕ := 15
def macGroupLen : ℕ := 2
def macNumGroups : ℕ := 6
def macNumColons : ℕ := macNumGroups - 1
def macAddrLen : ℕ := 17
def macMinGroupVal : Int32 := 0x00
def macMaxGroupVal : Int32 := 0xff
def dpdkMinInterfaceVal : Int32 := 0x00
def dpdkMaxInterfaceVal : Int32 := 0xff
def ipv4MinCidrVal : Int32 := 0
def ipv4MaxCidrVal : Int32 := 32

/-- `index_of_first_char(str, ch, max)`, scanning from index `i`. -/
def indexOfFirstCharFrom (ch : Char) (max : Int) : List Char → ℕ → Int
  | [], i => if '\x00' = ch then i else -1
  | c :: cs, i =>
    if c = ch then i
    else if c = '\x00' ∨ (i : Int) = max then -1
    else indexOfFirstCharFrom ch max cs (i + 1)

def indexOfFirstChar (str : List Char) (ch : Char) (max : Int) : Int :=
  indexOfFirstCharFrom ch max str 0

def areAllCharDecimal : List Char → Bool
  | [] => true
  | ch :: str =>
    if ch = '\x00' then true
    else if !(decide (ch ≥ '0') && decide (ch ≤ '9')) then false
    else areAllCharDecimal str

def areAllCharHexadecimal : List Char → Bool
  | [] => true
  | ch :: str =>
    if ch = '\x00' then true
    else if !((decide (ch ≥ '0') && decide (ch ≤ '9')) || (decide (ch ≥ 'a') && decide (ch ≤ 'f')) ||
        (decide (ch ≥ 'A') && decide (ch ≤ 'F'))) then false
    else areAllCharHexadecimal str

def ipv4GroupValFromGroupStr (groupStr : List Char) (groupIdx : ℕ) : Int32 :=
  let groupVal := CStr.atoi groupStr
  if !(decide (groupVal ≥ ipv4MinGroupVal) && decide (groupVal ≤ ipv4MaxGroupVal)) then -1
  else groupVal <<< Int32.ofNat ((ipv4NumDots - groupIdx) * 8)

/-- The variables of the group loop of `ipv4_addr_from_str`. -/
structure Ipv4Scan where
  buf : List Char
  beginIdx : ℕ
  res : UInt32

/-- One iteration of the group loop of `ipv4_addr_from_str`. -/
def ipv4GroupStep (groupIdx : ℕ) (st : Ipv4Scan) : Except (List Char) Ipv4Scan :=
  let offset := indexOfFirstChar (st.buf.drop st.beginIdx) '.' ipv4GroupLen
  if offset = -1 then .error st.buf
  else
    let endIdx := st.beginIdx + offset.toNat
    let buf := st.buf.set endIdx '\x00'
    if !areAllCharDecimal (buf.drop st.beginIdx) then .error buf
    else
      let groupVal := ipv4GroupValFromGroupStr (buf.drop st.beginIdx) groupIdx
      let buf := buf.set endIdx '.'
      if groupVal = -1 then .error buf
      else .ok ⟨buf, endIdx + 1, st.res + groupVal.toUInt32⟩

/-- `ipv4_addr_from_str(addr_str, addr)`: the value returned, the buffer
afterwards and `*addr` afterwards. -/
def ipv4AddrFromStr (addrStr : List Char) (addr : UInt32) : Int × List Char × UInt32 :=
  match forRange ipv4GroupStep 0 ipv4NumDots ⟨addrStr, 0, 0⟩ with
  | .error buf => (-1, buf, addr)
  | .ok st =>
    let last := st.buf.drop st.beginIdx
    if CStr.strlen last > ipv4GroupLen then (-1, st.buf, addr)
    else if !areAllCharDecimal last then (-1, st.buf, addr)
    else
      let groupVal := ipv4GroupValFromGroupStr last ipv4NumDots
      if groupVal = -1 then (-1, st.buf, addr)
      else (0, st.buf, st.res + groupVal.toUInt32)

/-- The variables of the group loop of `mac_addr_from_str`. -/
structure MacScan where
  buf : List Char
  beginIdx : ℕ
  mac : EtherAddr

/-- One iteration of the group loop of `mac_addr_from_str`; an error carries
the buffer and `*mac` at the `return -1`. -/
def macGroupStep (groupIdx : ℕ) (st : MacScan) : Except (List Char × EtherAddr) MacScan :=
  let offset := indexOfFirstChar (st.buf.drop st.beginIdx) ':' macGroupLen
  if offset = -1 then .error (st.buf, st.mac)
  else
    let endIdx := st.beginIdx + offset.toNat
    let buf := st.buf.set endIdx '\x00'
    if !areAllCharHexadecimal (buf.drop st.beginIdx) then .error (buf, st.mac)
    else
      let groupVal := Int32.ofInt (CStr.strtol (buf.drop st.beginIdx) 16)
      let buf := buf.set endIdx ':'
      if !(decide (groupVal ≥ macMinGroupVal) && decide (groupVal ≤ macMaxGroupVal)) then .error (buf, st.mac)
      else .ok ⟨buf, endIdx + 1, ⟨st.mac.addrBytes.setIfInBounds groupIdx groupVal.toUInt32.toUInt8⟩⟩

/-- `mac_addr_from_str(addr_str, mac)`: the value returned, the buffer
afterwards and `*mac` afterwards. -/
def macAddrFromStr (addrStr : List Char) (mac : EtherAddr) : Int × List Char × EtherAddr :=
  match forRange macGroupStep 0 macNumColons ⟨addrStr, 0, mac⟩ with
  | .error (buf, mac) => (-1, buf, mac)
  | .ok st =>
    let last := st.buf.drop st.beginIdx
    -- Make sure the last group string is exactly 2 characters long.
    if CStr.strlen last ≠ macGroupLen then (-1, st.buf, st.mac)
    else if !areAllCharHexadecimal last then (-1, st.buf, st.mac)
    else
      let groupVal := Int32.ofInt (CStr.strtol last 16)
      if !(decide (groupVal ≥ macMinGroupVal) && decide (groupVal ≤ macMaxGroupVal)) then (-1, st.buf, st.mac)
      else (0, st.buf, ⟨st.mac.addrBytes.setIfInBounds macNumColons groupVal.toUInt32.toUInt8⟩)

end DpdkRouter.Utils
