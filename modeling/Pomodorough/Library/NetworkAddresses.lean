import Mathlib.Data.List.Basic

/-! # Network addresses

Addresses of the internet, how they are read with or without a port and written, and
the prefixes that contain them. -/
namespace Pomodorough.Library.NetworkAddresses

abbrev Bytes := List UInt8

abbrev dot : UInt8 := 46

abbrev colon : UInt8 := 58

abbrev percent : UInt8 := 37

abbrev openBracket : UInt8 := 91

abbrev closeBracket : UInt8 := 93

/-- `netip.Addr`: 32 bits, or 128 bits with a zone. The empty zone is none. -/
inductive Addr where
  | v4 (value : BitVec 32)
  | v6 (value : BitVec 128) (zone : Bytes)
  deriving DecidableEq, Repr

namespace Addr

def bitLen : Addr → Nat
  | .v4 _ => 32
  | .v6 _ _ => 128

def is4 : Addr → Bool
  | .v4 _ => true
  | .v6 _ _ => false

def is4In6 : Addr → Bool
  | .v4 _ => false
  | .v6 value _ => value >>> 32 = 0xffff#128

def zone : Addr → Bytes
  | .v4 _ => []
  | .v6 _ zone => zone

def withZone : Addr → Bytes → Addr
  | .v4 value, _ => .v4 value
  | .v6 value _, zone => .v6 value zone

/-- The address that another of 128 bits maps. -/
def unmap (address : Addr) : Addr :=
  match address with
  | .v6 value _ => if address.is4In6 then .v4 (value.truncate 32) else address
  | .v4 _ => address

end Addr

/-! ## Reading -/

def isDigit (b : UInt8) : Bool := 48 ≤ b && b ≤ 57

def digit (b : UInt8) : Nat := b.toNat - 48

def isHexDigit (b : UInt8) : Bool := isDigit b || 97 ≤ b && b ≤ 102 || 65 ≤ b && b ≤ 70

def hexDigit (b : UInt8) : Nat :=
  if isDigit b then digit b else if 97 ≤ b then b.toNat - 87 else b.toNat - 55

/-- The rest of the four fields, `value` and `digits` being those of the field being read. -/
def parseIPv4Fields (value digits : Nat) (fields : List Nat) : Bytes → Option (List Nat)
  | [] => if fields.length < 3 then none else some (fields ++ [value])
  | b :: rest =>
    if isDigit b then
      if digits = 1 ∧ value = 0 then none
      else
        let value := value * 10 + digit b
        if value > 255 then none else parseIPv4Fields value (digits + 1) fields rest
    else if b = dot then
      if digits = 0 ∨ rest = [] then none
      else if fields.length = 3 then none
      else parseIPv4Fields 0 0 (fields ++ [value]) rest
    else none

/-- The number whose bytes these are, the first one highest. -/
def number (bytes : List Nat) : Nat := bytes.foldl (fun n byte => n * 256 + byte) 0

def parseIPv4 (s : Bytes) : Option Addr :=
  (parseIPv4Fields 0 0 [] s).map fun fields => .v4 (BitVec.ofNat 32 (number fields))

/-- Reads groups until sixteen bytes are there: what is left of the text, the bytes read
and where the ellipsis stands among them. -/
def parseIPv6Groups : Nat → Bytes → List Nat → Option Nat →
    Option (Bytes × List Nat × Option Nat)
  | 0, s, ip, ellipsis => some (s, ip, ellipsis)
  | groups + 1, s, ip, ellipsis =>
    let digits := s.takeWhile isHexDigit
    let rest := s.dropWhile isHexDigit
    if digits.length > 4 then none
    else if digits = [] then none
    else if rest.head? = some dot then
      -- an embedded address must replace the last two groups
      if ellipsis = none ∧ ip.length ≠ 12 then none
      else if ip.length + 4 > 16 then none
      else (parseIPv4Fields 0 0 [] s).map fun fields => ([], ip ++ fields, ellipsis)
    else
      let acc := digits.foldl (fun n b => n * 16 + hexDigit b) 0
      let ip := ip ++ [acc / 256, acc % 256]
      match rest with
      | [] => some ([], ip, ellipsis)
      | b :: rest =>
        if b ≠ colon then none
        else match rest with
          | [] => none
          | c :: later =>
            if c = colon then
              if ellipsis.isSome then none
              else if later = [] then some ([], ip, some ip.length)
              else parseIPv6Groups groups later ip (some ip.length)
            else parseIPv6Groups groups (c :: later) ip ellipsis

/-- The sixteen bytes, with zeros where the ellipsis stands. -/
def expandEllipsis (ip : List Nat) (ellipsis : Option Nat) : Option (List Nat) :=
  if ip.length < 16 then
    ellipsis.map fun start =>
      ip.take start ++ List.replicate (16 - ip.length) 0 ++ ip.drop start
  else if ellipsis.isSome then none
  else some ip

def parseIPv6Value (s : Bytes) : Option (BitVec 128) := do
  let (rest, ip, ellipsis) ←
    match s with
    | b :: c :: rest =>
      if b = colon ∧ c = colon then
        if rest = [] then some ([], [], some 0) else parseIPv6Groups 8 rest [] (some 0)
      else parseIPv6Groups 8 s [] none
    | _ => parseIPv6Groups 8 s [] none
  if rest ≠ [] then none
  else (expandEllipsis ip ellipsis).map fun ip => BitVec.ofNat 128 (number ip)

def parseIPv6 (s : Bytes) : Option Addr :=
  let value := s.takeWhile (· ≠ percent)
  match s.dropWhile (· ≠ percent) with
  | [] => (parseIPv6Value value).map fun value => .v6 value []
  | _ :: zone => if zone = [] then none else (parseIPv6Value value).map fun value => .v6 value zone

/-- `netip.ParseAddr` -/
def parseAddr (s : Bytes) : Option Addr :=
  match s.find? fun b => b = dot ∨ b = colon ∨ b = percent with
  | some b => if b = dot then parseIPv4 s else if b = colon then parseIPv6 s else none
  | none => none

/-- `strconv.ParseUint`, to the base 10 and in 16 bits. -/
def parsePort (s : Bytes) : Option Nat :=
  if s = [] ∨ !s.all isDigit then none
  else
    let port := s.foldl (fun n b => n * 10 + digit b) 0
    if port > 65535 then none else some port

/-- The text before the last colon and the text after it. -/
def cutLastColon (s : Bytes) : Option (Bytes × Bytes) :=
  if colon ∈ s then
    let port := (s.reverse.takeWhile (· ≠ colon)).reverse
    some (s.take (s.length - port.length - 1), port)
  else none

def splitAddrPort (s : Bytes) : Option (Bytes × Bytes × Bool) := do
  let (ip, port) ← cutLastColon s
  if ip = [] then none
  else if port = [] then none
  else if ip.head? = some openBracket then
    if ip.length < 2 ∨ ip.getLast? ≠ some closeBracket then none
    else some (ip.tail.dropLast, port, true)
  else some (ip, port, false)

/-- `netip.ParseAddrPort` -/
def parseAddrPort (s : Bytes) : Option (Addr × Nat) := do
  let (ip, port, v6) ← splitAddrPort s
  let port ← parsePort port
  let address ← parseAddr ip
  if v6 ∧ address.is4 then none
  else if !v6 ∧ !address.is4 then none
  else some (address, port)

/-! ## Writing -/

def decimal (n : Nat) : Bytes := (Nat.toDigits 10 n).map fun c => UInt8.ofNat c.toNat

def hexadecimal (n : Nat) : Bytes := (Nat.toDigits 16 n).map fun c => UInt8.ofNat c.toNat

def writeIPv4 (value : BitVec 32) : Bytes :=
  [dot].intercalate
    ((List.range 4).map fun i => decimal ((value >>> (8 * (3 - i))).toNat % 256))

/-- The first of the longest runs of two or more zeros. -/
def zeroRun (groups : List Nat) : Option (Nat × Nat) :=
  (List.range groups.length).foldl (fun run i =>
    let zeros := ((groups.drop i).takeWhile (· = 0)).length
    if zeros ≥ 2 ∧ zeros > run.elim 0 (fun run => run.2 - run.1) then some (i, i + zeros)
    else run) none

def writeIPv6 (value : BitVec 128) : Bytes :=
  let groups := (List.range 8).map fun i => (value >>> (16 * (7 - i))).toNat % 65536
  match zeroRun groups with
  | none => [colon].intercalate (groups.map hexadecimal)
  | some (start, stop) =>
    [colon].intercalate ((groups.take start).map hexadecimal) ++ [colon, colon] ++
      [colon].intercalate ((groups.drop stop).map hexadecimal)

/-- `Addr.String` -/
def Addr.string (address : Addr) : Bytes :=
  match address with
  | .v4 value => writeIPv4 value
  | .v6 value zone =>
    let text := if address.is4In6 then
        [colon, colon, 102, 102, 102, 102, colon] ++ writeIPv4 (value.truncate 32)
      else writeIPv6 value
    if zone = [] then text else text ++ percent :: zone

/-! ## Prefixes -/

/-- The addresses that begin with the first `bits` bits of `ip`. No bits mean an invalid prefix. -/
structure Prefix where
  ip : Addr
  bits : Option Nat
  bound : ∀ n ∈ bits, n ≤ ip.bitLen
  zoneless : ip.zone = []

def mask (w bits : Nat) : BitVec w := BitVec.allOnes w <<< (w - bits)

/-- The first address with the same `bits` bits at its beginning. -/
def Addr.masked (bits : Nat) : Addr → Addr
  | .v4 value => .v4 (value &&& mask 32 bits)
  | .v6 value zone => .v6 (value &&& mask 128 bits) zone

@[simp] theorem Addr.bitLen_masked (address : Addr) (bits : Nat) :
    (address.masked bits).bitLen = address.bitLen := by
  cases address <;> rfl

@[simp] theorem Addr.zone_masked (address : Addr) (bits : Nat) :
    (address.masked bits).zone = address.zone := by
  cases address <;> rfl

namespace Prefix

def isValid (p : Prefix) : Bool := p.bits.isSome

def masked (p : Prefix) : Prefix where
  ip := p.ip.masked (p.bits.getD 0)
  bits := p.bits
  bound := by
    intro n hn
    rw [Addr.bitLen_masked]
    exact p.bound n hn
  zoneless := by rw [Addr.zone_masked, p.zoneless]

/-- An address with a zone is in no prefix. -/
def contains (p : Prefix) (address : Addr) : Bool :=
  match p.bits with
  | none => false
  | some bits =>
    match p.ip, address with
    | .v4 value, .v4 other => (value ^^^ other) >>> (32 - bits) = 0
    | .v6 value _, .v6 other zone => zone = [] && (value ^^^ other) &&& mask 128 bits = 0
    | _, _ => false

theorem mask_getLsbD {w bits i : Nat} (hi : i < w) :
    (mask w bits).getLsbD i = decide (w - bits ≤ i) := by
  simp only [mask, BitVec.getLsbD_shiftLeft, BitVec.getLsbD_allOnes, hi, decide_true, Bool.true_and]
  by_cases h : w - bits ≤ i
  · simp [h, show i - (w - bits) < w by omega]
  · simp [h, show i < w - bits by omega]

/-- Masking a prefix keeps what it contains. -/
theorem contains_masked (p : Prefix) (address : Addr) :
    p.masked.contains address = p.contains address := by
  obtain ⟨ip, bits, bound, zoneless⟩ := p
  cases bits with
  | none => rfl
  | some bits =>
    cases ip with
    | v4 value =>
      cases address with
      | v6 => rfl
      | v4 other =>
        have hsame : ((value &&& mask 32 bits) ^^^ other) >>> (32 - bits) =
            (value ^^^ other) >>> (32 - bits) := by
          apply BitVec.eq_of_getLsbD_eq
          intro i hi
          simp only [BitVec.getLsbD_ushiftRight, BitVec.getLsbD_xor, BitVec.getLsbD_and]
          by_cases h : 32 - bits + i < 32
          · simp [mask_getLsbD h]
          · simp [BitVec.getLsbD_of_ge _ _ (Nat.le_of_not_lt h)]
        simp only [contains, masked, Addr.masked, Option.getD_some, hsame]
    | v6 value zone =>
      cases address with
      | v4 => rfl
      | v6 other otherZone =>
        have hsame : ((value &&& mask 128 bits) ^^^ other) &&& mask 128 bits =
            (value ^^^ other) &&& mask 128 bits := by
          apply BitVec.eq_of_getLsbD_eq
          intro i hi
          simp only [BitVec.getLsbD_xor, BitVec.getLsbD_and]
          cases (mask 128 bits).getLsbD i <;> simp
        simp only [contains, masked, Addr.masked, Option.getD_some, hsame]

end Prefix

end Pomodorough.Library.NetworkAddresses
