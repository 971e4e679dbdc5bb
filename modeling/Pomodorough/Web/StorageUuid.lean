import Pomodorough.Library.Hexadecimal
import Pomodorough.Library.Traces
import Pomodorough.Web.DeliveryProof

/-! # The identifiers of the browser's storage

UUIDs of version 7: a time in milliseconds and a random tail of 74 bits, with the
version and the variant between them. A reservation continues from the last stored
identifier where the clock has not passed it, and draws a random tail otherwise. -/
namespace Pomodorough.Web.StorageUuid
open Pomodorough.Library
open Pomodorough.Library.Hexadecimal
open Pomodorough.Web.SyncCore (isSafeInteger)

def MAX_TIMESTAMP_MS : Nat := 2 ^ 48 - 1
def RANDOM_MAX : Nat := 2 ^ 74 - 1
def RAND_B_MASK : Nat := 2 ^ 62 - 1
def ENTROPY_ATTEMPTS : Nat := 16

/-- The message of `UUIDRangeError`. -/
def UUIDRangeError : String := "UUIDv7 generator state is outside the supported range."

/-! ## Texts -/

/-- `uuidText`. -/
def uuidText (integer : Nat) : String :=
  let hex := (Nat.toDigits 16 integer).leftpad 32 '0'
  String.ofList (hex.take 8 ++ '-' :: ((hex.drop 8).take 4 ++ '-' :: ((hex.drop 12).take 4 ++
    '-' :: ((hex.drop 16).take 4 ++ '-' :: hex.drop 20))))

/-- The integer that `fromParts` composes. -/
def compose (timestampMs randomValue : Nat) : Nat :=
  let randA := randomValue >>> 62
  let randB := randomValue &&& RAND_B_MASK
  (timestampMs <<< 80) ||| (7 <<< 76) ||| (randA <<< 64) ||| (0b10 <<< 62) ||| randB

/-- `fromParts`. -/
def fromParts (timestampMs randomValue : Int) : Except String String :=
  if isSafeInteger timestampMs = false ∨ timestampMs < 0 ∨ timestampMs > MAX_TIMESTAMP_MS ∨
      randomValue < 0 ∨ randomValue > RANDOM_MAX then .error UUIDRangeError
  else .ok (uuidText (compose timestampMs.toNat randomValue.toNat))

def isVariantDigit (c : Char) : Bool :=
  c = '8' || c = '9' || c = 'a' || c = 'b' || c = 'A' || c = 'B'

def isDash (c : Char) : Bool := c = '-'

def isVersionDigit (c : Char) : Bool := c = '7'

/-- The shape that `parts` tests, for the digits that the pattern counts as such. -/
def shape (digit : Char → Bool) : List (Char → Bool) :=
  List.replicate 8 digit ++ isDash :: (List.replicate 4 digit ++ isDash :: isVersionDigit ::
    (List.replicate 3 digit ++ isDash :: (fun c => isVariantDigit c && digit c) ::
      (List.replicate 3 digit ++ isDash :: List.replicate 12 digit)))

structure Parts where
  integer : Nat
  timestampMs : Nat
  randomValue : Nat
deriving DecidableEq, Repr

/-- The fields of an integer of 128 bits. -/
def split (integer : Nat) : Parts :=
  let randA := (integer >>> 64) &&& 0xFFF
  let randB := integer &&& RAND_B_MASK
  ⟨integer, integer >>> 80, (randA <<< 62) ||| randB⟩

/-- `parts`. -/
def parts (identifier : String) : Except String Parts :=
  if fits (shape isHexDigit) identifier.toList then
    .ok (split (value (identifier.toList.filter (· ≠ '-'))))
  else .error "Persisted UUIDv7 state is invalid."

/-! ## Reservations -/

/-- The pending identifiers that are of version 7. -/
def parsed (pendingIds : List String) : List Parts :=
  pendingIds.filterMap fun identifier => (parts identifier).toOption

/-- The later of the last and the next, as `latestPending` compares them. -/
def laterOf (latest : Option Parts) (item : Parts) : Option Parts :=
  match latest with
  | none => some item
  | some last => if item.integer > last.integer then some item else some last

/-- `latestPending`. -/
def latestPending (pendingIds : List String) : Option Parts :=
  (parsed pendingIds).foldl laterOf none

/-- `Array.from({ length }, …)`, which makes no array of more than 2³² − 1 elements. -/
def arrayFrom (length : Nat) (element : Nat → Except String String) : Except String (List String) :=
  if length > 4294967295 then .error "Invalid array length"
  else Fallible.mapAll element (List.range length)

/-- `sequential`. -/
def sequential (previous : Option Parts) (timestampMs : Int) (count : Nat) :
    Except String (Option (List String)) :=
  match previous with
  | none => .ok none
  | some previous =>
    if timestampMs > previous.timestampMs then .ok none
    else if (previous.randomValue : Int) > RANDOM_MAX - count then
      .error "UUIDv7 random value has no headroom."
    else do
      let ids ← arrayFrom count fun index =>
        fromParts previous.timestampMs (previous.randomValue + 1 + index)
      .ok (some ids)

/-- What each call of the entropy source gives: an error, its bytes, or something
that is no array of bytes. -/
abbrev Entropy := Nat → Except String (Option (List UInt8))

/-- The tail that the bytes of an attempt give. -/
def tail (bytes : List UInt8) : Nat :=
  bytes.foldl (fun randomValue byte => (randomValue <<< 8) ||| byte.toNat) 0 &&& RANDOM_MAX

/-- The attempts of `randomBatch`. -/
def randomBatchFrom (timestampMs : Int) (count : Nat) (entropy : Entropy) :
    List Nat → Except String (List String)
  | [] => .error "UUIDv7 entropy lacks reservation headroom."
  | attempt :: attempts => do
    let source ← entropy attempt
    match source with
    | none => .error "UUIDv7 entropy source returned invalid data."
    | some bytes =>
      if bytes.length ≠ 10 then .error "UUIDv7 entropy source returned invalid data."
      else if (tail bytes : Int) ≤ RANDOM_MAX - ((count : Int) - 1) then
        arrayFrom count fun index => fromParts timestampMs (tail bytes + index)
      else randomBatchFrom timestampMs count entropy attempts

/-- `randomBatch`. -/
def randomBatch (timestampMs : Int) (count : Nat) (entropy : Entropy) :
    Except String (List String) :=
  randomBatchFrom timestampMs count entropy (List.range ENTROPY_ATTEMPTS)

/-- The stored identifier, where there is one. -/
def storedParts : Option String → Except String (Option Parts)
  | none => .ok none
  | some stored => do
    let fields ← parts stored
    .ok (some fields)

/-- Whether a pending identifier is above the stored one. -/
def predates (stored pending : Option Parts) : Bool :=
  match stored, pending with
  | some stored, some pending => pending.integer > stored.integer
  | _, _ => false

/-- `reserve`. -/
def reserve (timestampMs count : Int) (stored : Option String) (pendingIds : List String)
    (entropy : Entropy) : Except String (List String) :=
  if isSafeInteger timestampMs = false ∨ timestampMs ≤ 0 ∨ timestampMs > MAX_TIMESTAMP_MS ∨
      isSafeInteger count = false ∨ count ≤ 0 ∨ count > RANDOM_MAX + 1 then .error UUIDRangeError
  else do
    let storedParts ← storedParts stored
    let pendingParts := latestPending pendingIds
    if predates storedParts pendingParts then
      .error "Persisted UUIDv7 state predates a pending identifier."
    else do
      let continued ← sequential (storedParts.or pendingParts) timestampMs count.toNat
      match continued with
      | some ids => .ok ids
      | none => randomBatch timestampMs count.toNat entropy

/-! ## The layout of an identifier -/

section Layout
variable {t r n : Nat}

theorem uuidText_groups {a b c d e : List Char} (ha : a.length = 8) (hb : b.length = 4)
    (hc : c.length = 4) (hd : d.length = 4)
    (hdigits : (Nat.toDigits 16 n).leftpad 32 '0' = a ++ (b ++ (c ++ (d ++ e)))) :
    uuidText n = String.ofList (a ++ '-' :: (b ++ '-' :: (c ++ '-' :: (d ++ '-' :: e)))) := by
  have h8 : (a ++ (b ++ (c ++ (d ++ e)))).drop 8 = b ++ (c ++ (d ++ e)) := List.drop_left' ha
  have h12 : (a ++ (b ++ (c ++ (d ++ e)))).drop 12 = c ++ (d ++ e) := by
    have hdrop := congrArg (List.drop 4) h8
    rwa [List.drop_drop, List.drop_left' hb] at hdrop
  have h16 : (a ++ (b ++ (c ++ (d ++ e)))).drop 16 = d ++ e := by
    have hdrop := congrArg (List.drop 4) h12
    rwa [List.drop_drop, List.drop_left' hc] at hdrop
  have h20 : (a ++ (b ++ (c ++ (d ++ e)))).drop 20 = e := by
    have hdrop := congrArg (List.drop 4) h16
    rwa [List.drop_drop, List.drop_left' hd] at hdrop
  simp only [uuidText, hdigits]
  rw [h8, h12, h16, h20, List.take_left' ha, List.take_left' hb, List.take_left' hc,
    List.take_left' hd]

/-- The digits of an identifier, group by group. -/
theorem uuidText_fixed (h : n < 16 ^ 32) : uuidText n = String.ofList
    (fixed 8 (n / 16 ^ 24) ++ '-' :: (fixed 4 (n / 16 ^ 20) ++ '-' :: (fixed 4 (n / 16 ^ 16) ++
      '-' :: (fixed 4 (n / 16 ^ 12) ++ '-' :: fixed 12 n)))) := by
  refine uuidText_groups length_fixed length_fixed length_fixed length_fixed ?_
  rw [leftpad_toDigits (by decide) h, show 32 = 8 + 24 from rfl, fixed_add,
    show 24 = 4 + 20 from rfl, fixed_add 4 20, show 20 = 4 + 16 from rfl, fixed_add 4 16,
    show 16 = 4 + 12 from rfl, fixed_add 4 12]

theorem compose_eq (hr : r < 2 ^ 74) : compose t r =
    t * 2 ^ 80 + 7 * 2 ^ 76 + r / 2 ^ 62 * 2 ^ 64 + 2 * 2 ^ 62 + r % 2 ^ 62 := by
  have hA : r >>> 62 = r / 2 ^ 62 := Nat.shiftRight_eq_div_pow r 62
  have hB : r &&& RAND_B_MASK = r % 2 ^ 62 := Nat.and_two_pow_sub_one_eq_mod r 62
  have hAlt : r / 2 ^ 62 < 2 ^ 12 := by omega
  have hBlt : r % 2 ^ 62 < 2 ^ 62 := Nat.mod_lt _ (by decide)
  have hversion : (t <<< 80) ||| (7 <<< 76) = (t * 16 + 7) <<< 76 := by
    rw [← Nat.shiftLeft_add_eq_or_of_lt (by decide)]
    simp only [Nat.shiftLeft_eq]
    omega
  have hrandA : ((t * 16 + 7) <<< 76) ||| ((r / 2 ^ 62) <<< 64) =
      ((t * 16 + 7) * 2 ^ 12 + r / 2 ^ 62) <<< 64 := by
    rw [← Nat.shiftLeft_add_eq_or_of_lt (by rw [Nat.shiftLeft_eq]; omega)]
    simp only [Nat.shiftLeft_eq]
    omega
  have hvariant : (((t * 16 + 7) * 2 ^ 12 + r / 2 ^ 62) <<< 64) ||| (0b10 <<< 62) =
      (((t * 16 + 7) * 2 ^ 12 + r / 2 ^ 62) * 4 + 2) <<< 62 := by
    rw [← Nat.shiftLeft_add_eq_or_of_lt (by decide)]
    simp only [Nat.shiftLeft_eq]
    omega
  simp only [compose, hA, hB]
  rw [hversion, hrandA, hvariant, ← Nat.shiftLeft_add_eq_or_of_lt hBlt, Nat.shiftLeft_eq]
  omega

theorem split_eq : split n =
    ⟨n, n / 2 ^ 80, n / 2 ^ 64 % 2 ^ 12 * 2 ^ 62 + n % 2 ^ 62⟩ := by
  have hA : (n >>> 64) &&& 0xFFF = n / 2 ^ 64 % 2 ^ 12 := by
    rw [Nat.shiftRight_eq_div_pow]
    exact Nat.and_two_pow_sub_one_eq_mod _ 12
  have hB : n &&& RAND_B_MASK = n % 2 ^ 62 := Nat.and_two_pow_sub_one_eq_mod n 62
  have hBlt : n % 2 ^ 62 < 2 ^ 62 := Nat.mod_lt _ (by decide)
  simp only [split, hA, hB]
  rw [← Nat.shiftLeft_add_eq_or_of_lt hBlt, Nat.shiftLeft_eq, Nat.shiftRight_eq_div_pow]

/-- An integer whose version and variant bits are those of version 7. -/
def Version7 (n : Nat) : Prop := n < 2 ^ 128 ∧ n / 2 ^ 76 % 16 = 7 ∧ n / 2 ^ 62 % 4 = 2

theorem version7_compose (ht : t < 2 ^ 48) (hr : r < 2 ^ 74) : Version7 (compose t r) := by
  have hA : r / 2 ^ 62 < 2 ^ 12 := by omega
  have hB : r % 2 ^ 62 < 2 ^ 62 := Nat.mod_lt _ (by decide)
  rw [compose_eq hr]
  generalize r / 2 ^ 62 = randA at hA
  generalize r % 2 ^ 62 = randB at hB
  have hversion : (t * 2 ^ 80 + 7 * 2 ^ 76 + randA * 2 ^ 64 + 2 * 2 ^ 62 + randB) / 2 ^ 76 =
      t * 16 + 7 := Nat.div_eq_of_lt_le (by omega) (by omega)
  have hvariant : (t * 2 ^ 80 + 7 * 2 ^ 76 + randA * 2 ^ 64 + 2 * 2 ^ 62 + randB) / 2 ^ 62 =
      (t * 2 ^ 16 + 7 * 2 ^ 12 + randA) * 4 + 2 := Nat.div_eq_of_lt_le (by omega) (by omega)
  refine ⟨by omega, ?_, ?_⟩
  · rw [hversion]
    omega
  · rw [hvariant]
    omega

theorem split_compose (hr : r < 2 ^ 74) : split (compose t r) = ⟨compose t r, t, r⟩ := by
  rw [split_eq]
  congr 1
  · rw [compose_eq hr]
    omega
  · rw [compose_eq hr]
    omega

theorem compose_split (h : Version7 n) :
    (split n).timestampMs < 2 ^ 48 ∧ (split n).randomValue < 2 ^ 74 ∧
      compose (split n).timestampMs (split n).randomValue = n := by
  obtain ⟨hn, hversion, hvariant⟩ := h
  have hr : (split n).randomValue < 2 ^ 74 := by
    rw [split_eq]
    dsimp only
    omega
  refine ⟨?_, hr, ?_⟩
  · rw [split_eq]
    dsimp only
    omega
  · rw [compose_eq hr, split_eq]
    dsimp only
    omega

/-- The order of the integers is that of the times and, at one time, of the tails. -/
theorem compose_lt {t' r' : Nat} (hr : r < 2 ^ 74) (hr' : r' < 2 ^ 74)
    (h : t < t' ∨ t = t' ∧ r < r') : compose t r < compose t' r' := by
  rw [compose_eq hr, compose_eq hr']
  omega

end Layout

/-! ## Texts and their fields -/

section Texts
variable {identifier : String} {n : Nat} {p : Parts}

/-- The identifiers of version 7 as `fromParts` writes them. -/
def Canonical (identifier : String) : Prop :=
  fits (shape isLowerHexDigit) identifier.toList = true

instance (identifier : String) : Decidable (Canonical identifier) :=
  inferInstanceAs (Decidable (_ = true))

/-- The groups of a text that has the shape. -/
structure Groups (digit : Char → Bool) (cs : List Char) (a b c d e : List Char) (v : Char) : Prop where
  text : cs = a ++ '-' :: (b ++ '-' :: ('7' :: (c ++ '-' :: v :: (d ++ '-' :: e))))
  variant : isVariantDigit v = true
  lengths : a.length = 8 ∧ b.length = 4 ∧ c.length = 3 ∧ d.length = 3 ∧ e.length = 12
  digits : ∀ x ∈ a ++ (b ++ ('7' :: (c ++ (v :: (d ++ e))))), digit x = true

theorem fits_shape_iff {digit : Char → Bool} (hversion : digit '7' = true) {cs : List Char} :
    fits (shape digit) cs = true ↔ ∃ a b c d e v, Groups digit cs a b c d e v := by
  unfold shape
  constructor
  · intro h
    obtain ⟨a, rest, rfl, ha, h⟩ := fits_append_iff.mp h
    obtain ⟨dash, rest, rfl, hdash, h⟩ := fits_cons_iff.mp h
    obtain ⟨b, rest, rfl, hb, h⟩ := fits_append_iff.mp h
    obtain ⟨dashB, rest, rfl, hdashB, h⟩ := fits_cons_iff.mp h
    obtain ⟨version, rest, rfl, hseven, h⟩ := fits_cons_iff.mp h
    obtain ⟨c, rest, rfl, hc, h⟩ := fits_append_iff.mp h
    obtain ⟨dashC, rest, rfl, hdashC, h⟩ := fits_cons_iff.mp h
    obtain ⟨v, rest, rfl, hv, h⟩ := fits_cons_iff.mp h
    obtain ⟨d, rest, rfl, hd, h⟩ := fits_append_iff.mp h
    obtain ⟨dashD, e, rfl, hdashD, he⟩ := fits_cons_iff.mp h
    rw [fits_replicate_iff] at ha hb hc hd he
    rw [Bool.and_eq_true] at hv
    obtain rfl := of_decide_eq_true hdash
    obtain rfl := of_decide_eq_true hdashB
    obtain rfl := of_decide_eq_true hdashC
    obtain rfl := of_decide_eq_true hdashD
    obtain rfl := of_decide_eq_true hseven
    refine ⟨a, b, c, d, e, v, rfl, hv.1, ⟨ha.1, hb.1, hc.1, hd.1, he.1⟩, ?_⟩
    simp only [List.forall_mem_append, List.forall_mem_cons]
    exact ⟨ha.2, hb.2, hversion, hc.2, hv.2, hd.2, he.2⟩
  · rintro ⟨a, b, c, d, e, v, htext, hvariant, ⟨ha, hb, hc, hd, he⟩, hdigits⟩
    simp only [List.forall_mem_append, List.forall_mem_cons] at hdigits
    obtain ⟨hA, hB, -, hC, hV, hD, hE⟩ := hdigits
    rw [htext]
    refine fits_append_iff.mpr ⟨a, _, rfl, fits_replicate_iff.mpr ⟨ha, hA⟩, ?_⟩
    refine fits_cons_iff.mpr ⟨_, _, rfl, rfl, ?_⟩
    refine fits_append_iff.mpr ⟨b, _, rfl, fits_replicate_iff.mpr ⟨hb, hB⟩, ?_⟩
    refine fits_cons_iff.mpr ⟨_, _, rfl, rfl, fits_cons_iff.mpr ⟨_, _, rfl, rfl, ?_⟩⟩
    refine fits_append_iff.mpr ⟨c, _, rfl, fits_replicate_iff.mpr ⟨hc, hC⟩, ?_⟩
    refine fits_cons_iff.mpr ⟨_, _, rfl, rfl, fits_cons_iff.mpr ⟨v, _, rfl, ?_, ?_⟩⟩
    · rw [hvariant, hV]
      rfl
    refine fits_append_iff.mpr ⟨d, _, rfl, fits_replicate_iff.mpr ⟨hd, hD⟩, ?_⟩
    exact fits_cons_iff.mpr ⟨_, _, rfl, rfl, fits_replicate_iff.mpr ⟨he, hE⟩⟩

theorem not_dash {x : Char} (h : isHexDigit x = true) : x ≠ '-' := by
  rintro rfl
  exact absurd h (by decide)

/-- The digits that remain where the dashes are dropped. -/
theorem Groups.filter {cs a b c d e : List Char} {v : Char} (g : Groups isHexDigit cs a b c d e v) :
    cs.filter (· ≠ '-') = a ++ (b ++ ('7' :: (c ++ (v :: (d ++ e))))) := by
  have hkeep : ∀ l : List Char, (∀ x ∈ l, isHexDigit x = true) → l.filter (· ≠ '-') = l := by
    intro l hl
    rw [List.filter_eq_self]
    intro x hx
    simpa using not_dash (hl x hx)
  have hdigits := g.digits
  simp only [List.forall_mem_append, List.forall_mem_cons] at hdigits
  obtain ⟨hA, hB, hseven, hC, hV, hD, hE⟩ := hdigits
  have hv := not_dash hV
  simp only [g.text, List.filter_append, List.filter_cons, hkeep a hA, hkeep b hB, hkeep c hC,
    hkeep d hD, hkeep e hE]
  simp [hv]

/-- Where the version and the variant stand in the integer. -/
theorem Groups.version7 {cs a b c d e : List Char} {v : Char} (g : Groups isHexDigit cs a b c d e v) :
    Version7 (value (cs.filter (· ≠ '-'))) := by
  obtain ⟨ha, hb, hc, hd, he⟩ := g.lengths
  have hdigits := g.digits
  simp only [List.forall_mem_append, List.forall_mem_cons] at hdigits
  obtain ⟨hA, hB, -, hC, hV, hD, hE⟩ := hdigits
  have hvariant : digitValue v / 4 = 2 := by
    have h := g.variant
    simp only [isVariantDigit, Bool.or_eq_true, decide_eq_true_eq] at h
    obtain ((((rfl | rfl) | rfl) | rfl) | rfl) | rfl := h <;> rfl
  have hvalue : value (cs.filter (· ≠ '-')) = ((((value a * 16 ^ 4 + value b) * 16 + 7) * 16 ^ 3 +
      value c) * 16 + digitValue v) * 16 ^ 15 + (value d * 16 ^ 12 + value e) := by
    rw [g.filter]
    have hcons : ∀ (x : Char) (l : List Char), value (x :: l) = digitValue x * 16 ^ l.length + value l := by
      intro x l
      rw [← List.singleton_append, value_append]
      simp [value]
    simp only [value_append, hcons, List.length_append, List.length_cons, hb, hc, hd, he]
    rw [show digitValue '7' = 7 from rfl]
    ring
  have hAlt := ha ▸ value_lt hA
  have hBlt := hb ▸ value_lt hB
  have hClt := hc ▸ value_lt hC
  have hDlt := hd ▸ value_lt hD
  have hElt := he ▸ value_lt hE
  rw [hvalue]
  refine ⟨by omega, ?_, ?_⟩
  · have hdiv : (((((value a * 16 ^ 4 + value b) * 16 + 7) * 16 ^ 3 + value c) * 16 + digitValue v) *
        16 ^ 15 + (value d * 16 ^ 12 + value e)) / 2 ^ 76 =
        (value a * 16 ^ 4 + value b) * 16 + 7 := Nat.div_eq_of_lt_le (by omega) (by omega)
    rw [hdiv]
    omega
  · have hdiv : (((((value a * 16 ^ 4 + value b) * 16 + 7) * 16 ^ 3 + value c) * 16 + digitValue v) *
        16 ^ 15 + (value d * 16 ^ 12 + value e)) / 2 ^ 62 =
        (((value a * 16 ^ 4 + value b) * 16 + 7) * 16 ^ 3 + value c) * 4 + 2 :=
      Nat.div_eq_of_lt_le (by omega) (by omega)
    rw [hdiv]
    omega

theorem Groups.of_lower {cs a b c d e : List Char} {v : Char}
    (g : Groups isLowerHexDigit cs a b c d e v) : Groups isHexDigit cs a b c d e v :=
  { g with digits := fun x hx => isHexDigit_of_lower (g.digits x hx) }

theorem version7_lt (h : Version7 n) : n < 16 ^ 32 := by
  have hlt := h.1
  omega

/-- The text of an integer with the bits of version 7, group by group. -/
theorem groups_uuidText (h : Version7 n) : ∃ a b c d e v,
    Groups isLowerHexDigit (uuidText n).toList a b c d e v ∧
      a ++ (b ++ ('7' :: (c ++ (v :: (d ++ e))))) = fixed 32 n := by
  have hfirst : ∀ m, fixed 4 m = Nat.digitChar (m / 16 ^ 3 % 16) :: fixed 3 m := fun m => by
    rw [show 4 = 1 + 3 from rfl, fixed_add]
    rfl
  have hversion : n / 16 ^ 16 / 16 ^ 3 % 16 = 7 := by
    have := h.2.1
    omega
  have hbound : 8 ≤ n / 16 ^ 12 / 16 ^ 3 % 16 ∧ n / 16 ^ 12 / 16 ^ 3 % 16 ≤ 11 := by
    have := h.2.2
    omega
  have hvariant : isVariantDigit (Nat.digitChar (n / 16 ^ 12 / 16 ^ 3 % 16)) = true := by
    have hall : ∀ k, 8 ≤ k ∧ k ≤ 11 → isVariantDigit (Nat.digitChar k) = true := by
      intro k hk
      obtain rfl | rfl | rfl | rfl : k = 8 ∨ k = 9 ∨ k = 10 ∨ k = 11 := by omega
      all_goals rfl
    exact hall _ hbound
  have hdigits : fixed 8 (n / 16 ^ 24) ++ (fixed 4 (n / 16 ^ 20) ++ ('7' :: (fixed 3 (n / 16 ^ 16) ++
      (Nat.digitChar (n / 16 ^ 12 / 16 ^ 3 % 16) :: (fixed 3 (n / 16 ^ 12) ++ fixed 12 n))))) =
      fixed 32 n := by
    rw [show 32 = 8 + 24 from rfl, fixed_add, show 24 = 4 + 20 from rfl, fixed_add 4 20,
      show 20 = 4 + 16 from rfl, fixed_add 4 16, show 16 = 4 + 12 from rfl, fixed_add 4 12,
      hfirst (n / 16 ^ 16), hfirst (n / 16 ^ 12), hversion]
    rfl
  refine ⟨_, _, _, _, _, _, ⟨?_, hvariant, ?_, ?_⟩, hdigits⟩
  · rw [uuidText_fixed (version7_lt h), String.toList_ofList, hfirst (n / 16 ^ 16),
      hfirst (n / 16 ^ 12), hversion]
    rfl
  · simp only [length_fixed, and_self]
  · rw [hdigits]
    exact fixed_lower

/-- The fields of a text are those of its integer. -/
theorem parts_uuidText (h : Version7 n) :
    Canonical (uuidText n) ∧ parts (uuidText n) = .ok (split n) := by
  obtain ⟨a, b, c, d, e, v, g, hdigits⟩ := groups_uuidText h
  have hlower : fits (shape isLowerHexDigit) (uuidText n).toList = true :=
    (fits_shape_iff rfl).mpr ⟨a, b, c, d, e, v, g⟩
  have hfits : fits (shape isHexDigit) (uuidText n).toList = true :=
    (fits_shape_iff rfl).mpr ⟨a, b, c, d, e, v, g.of_lower⟩
  refine ⟨hlower, ?_⟩
  rw [parts, if_pos hfits, g.of_lower.filter, hdigits, value_fixed,
    Nat.mod_eq_of_lt (version7_lt h)]

theorem parts_ok (h : parts identifier = .ok p) :
    Version7 p.integer ∧ p = split p.integer := by
  unfold parts at h
  split at h
  · next hfits =>
    obtain ⟨a, b, c, d, e, v, g⟩ := (fits_shape_iff rfl).mp hfits
    cases h
    exact ⟨g.version7, rfl⟩
  · cases h

/-- A canonical text is that of its integer. -/
theorem uuidText_parts (hcanonical : Canonical identifier) (h : parts identifier = .ok p) :
    uuidText p.integer = identifier := by
  obtain ⟨a, b, c, d, e, v, g⟩ := (fits_shape_iff rfl).mp hcanonical
  have hfits : fits (shape isHexDigit) identifier.toList = true :=
    (fits_shape_iff rfl).mpr ⟨a, b, c, d, e, v, g.of_lower⟩
  rw [parts, if_pos hfits, g.of_lower.filter] at h
  obtain ⟨ha, hb, hc, hd, he⟩ := g.lengths
  have hlength : (a ++ (b ++ ('7' :: (c ++ (v :: (d ++ e)))))).length = 32 := by
    simp [ha, hb, hc, hd, he]
  have hfixed := fixed_value g.digits
  have hlt := value_lt fun x hx => isHexDigit_of_lower (g.digits x hx)
  rw [hlength] at hfixed hlt
  have hpad := (leftpad_toDigits (by decide) hlt).trans hfixed
  cases h
  rw [← String.ofList_toList (s := identifier), g.text]
  have hgroups := uuidText_groups (c := '7' :: c) (d := v :: d) ha hb (by simp [hc]) (by simp [hd])
    hpad
  exact hgroups

theorem parts_canonical (hcanonical : Canonical identifier) : ∃ p, parts identifier = .ok p := by
  obtain ⟨a, b, c, d, e, v, g⟩ := (fits_shape_iff rfl).mp hcanonical
  have hfits : fits (shape isHexDigit) identifier.toList = true :=
    (fits_shape_iff rfl).mpr ⟨a, b, c, d, e, v, g.of_lower⟩
  exact ⟨_, by rw [parts, if_pos hfits]⟩

theorem fromParts_ok {t r : Nat} (ht : t ≤ MAX_TIMESTAMP_MS) (hr : r ≤ RANDOM_MAX) :
    fromParts t r = .ok (uuidText (compose t r)) := by
  unfold MAX_TIMESTAMP_MS at ht
  unfold RANDOM_MAX at hr
  have hsafe : isSafeInteger (t : Int) = true := by
    simp only [isSafeInteger, Bool.and_eq_true, decide_eq_true_eq]
    omega
  rw [fromParts, if_neg]
  · simp
  · simp only [hsafe, MAX_TIMESTAMP_MS, RANDOM_MAX, Bool.true_eq_false, false_or]
    omega

theorem fromParts_inv {t r : Int} (h : fromParts t r = .ok identifier) :
    ∃ t' r' : Nat, t = t' ∧ r = r' ∧ t' ≤ MAX_TIMESTAMP_MS ∧ r' ≤ RANDOM_MAX ∧
      identifier = uuidText (compose t' r') := by
  unfold fromParts at h
  split at h
  · cases h
  · next hrange =>
    simp only [not_or, not_lt] at hrange
    obtain ⟨-, ht, htmax, hr, hrmax⟩ := hrange
    cases h
    exact ⟨t.toNat, r.toNat, by omega, by omega, by omega, by omega, rfl⟩

/-- What a composed identifier says of itself. -/
theorem fromParts_parts {t r : Nat} (ht : t ≤ MAX_TIMESTAMP_MS) (hr : r ≤ RANDOM_MAX) :
    ∃ identifier, fromParts t r = .ok identifier ∧ Canonical identifier ∧
      parts identifier = .ok ⟨compose t r, t, r⟩ := by
  have ht' : t < 2 ^ 48 := by
    unfold MAX_TIMESTAMP_MS at ht
    omega
  have hr' : r < 2 ^ 74 := by
    unfold RANDOM_MAX at hr
    omega
  obtain ⟨hcanonical, hparts⟩ := parts_uuidText (version7_compose ht' hr')
  rw [split_compose hr'] at hparts
  exact ⟨_, fromParts_ok ht hr, hcanonical, hparts⟩

/-- A canonical identifier is composed again from its fields. -/
theorem parts_fromParts (hcanonical : Canonical identifier) : ∃ p, parts identifier = .ok p ∧
    p.timestampMs ≤ MAX_TIMESTAMP_MS ∧ p.randomValue ≤ RANDOM_MAX ∧
      fromParts p.timestampMs p.randomValue = .ok identifier := by
  obtain ⟨p, hp⟩ := parts_canonical hcanonical
  obtain ⟨hversion, hsplit⟩ := parts_ok hp
  obtain ⟨ht, hr, hcompose⟩ := compose_split hversion
  rw [← hsplit] at ht hr hcompose
  have ht' : p.timestampMs ≤ MAX_TIMESTAMP_MS := by
    unfold MAX_TIMESTAMP_MS
    omega
  have hr' : p.randomValue ≤ RANDOM_MAX := by
    unfold RANDOM_MAX
    omega
  refine ⟨p, hp, ht', hr', ?_⟩
  rw [fromParts_ok ht' hr', hcompose, uuidText_parts hcanonical hp]

end Texts

/-! ## Batches -/

/-- The order of the integers that two identifiers write. -/
def Less (earlier later : String) : Prop :=
  ∃ p q, parts earlier = .ok p ∧ parts later = .ok q ∧ p.integer < q.integer

theorem Less.ne {a b : String} (h : Less a b) : a ≠ b := by
  rintro rfl
  obtain ⟨p, q, hp, hq, hlt⟩ := h
  rw [hp] at hq
  cases hq
  exact absurd hlt (lt_irrefl _)

theorem Less.trans {a b c : String} (hab : Less a b) (hbc : Less b c) : Less a c := by
  obtain ⟨p, q, hp, hq, hlt⟩ := hab
  obtain ⟨q', r, hq', hr, hlt'⟩ := hbc
  rw [hq] at hq'
  cases hq'
  exact ⟨p, r, hp, hr, hlt.trans hlt'⟩

/-- Identifiers of one time and of tails that follow one another. -/
structure Batch (t r count : Nat) (ids : List String) : Prop where
  ids_eq : ids = (List.range count).map fun index => uuidText (compose t (r + index))
  time : t ≤ MAX_TIMESTAMP_MS
  room : r + count ≤ RANDOM_MAX + 1

section Batches
variable {t r count : Nat} {ids : List String} {identifier : String} {p : Parts}

namespace Batch

theorem parts_at (b : Batch t r count ids) {index : Nat} (h : index < count) :
    Canonical (uuidText (compose t (r + index))) ∧
      parts (uuidText (compose t (r + index))) = .ok ⟨compose t (r + index), t, r + index⟩ := by
  have hroom := b.room
  obtain ⟨identifier, hmade, hcanonical, hparts⟩ :=
    fromParts_parts b.time (show r + index ≤ RANDOM_MAX by omega)
  rw [fromParts_ok b.time (by omega), Except.ok.injEq] at hmade
  subst hmade
  exact ⟨hcanonical, hparts⟩

theorem mem (b : Batch t r count ids) (h : identifier ∈ ids) : ∃ index < count,
    Canonical identifier ∧ parts identifier = .ok ⟨compose t (r + index), t, r + index⟩ := by
  rw [b.ids_eq] at h
  obtain ⟨index, hindex, rfl⟩ := List.mem_map.mp h
  have hlt := List.mem_range.mp hindex
  exact ⟨index, hlt, b.parts_at hlt⟩

theorem tail_lt (b : Batch t r count ids) {index : Nat} (h : index < count) :
    r + index < 2 ^ 74 := by
  have hroom := b.room
  unfold RANDOM_MAX at hroom
  omega

theorem increasing (b : Batch t r count ids) : ids.Pairwise Less := by
  rw [b.ids_eq, List.pairwise_map]
  refine List.pairwise_lt_range.imp_of_mem ?_
  intro i j hi hj hlt
  have hi := List.mem_range.mp hi
  have hj := List.mem_range.mp hj
  exact ⟨_, _, (b.parts_at hi).2, (b.parts_at hj).2,
    compose_lt (b.tail_lt hi) (b.tail_lt hj) (.inr ⟨rfl, by omega⟩)⟩

/-- What is below the first of a batch is below all of it. -/
theorem above (b : Batch t r count ids) (hfirst : p.integer < compose t r)
    {earlier : String} (hearlier : parts earlier = .ok p) (h : identifier ∈ ids) :
    Less earlier identifier := by
  obtain ⟨index, hindex, -, hparts⟩ := b.mem h
  refine ⟨p, _, hearlier, hparts, hfirst.trans_le ?_⟩
  obtain rfl | hpositive := Nat.eq_zero_or_pos index
  · exact le_rfl
  · exact (compose_lt (b.tail_lt (by omega : 0 < count)) (b.tail_lt hindex)
      (.inr ⟨rfl, by omega⟩)).le

theorem length (b : Batch t r count ids) : ids.length = count := by
  rw [b.ids_eq, List.length_map, List.length_range]

end Batch

theorem arrayFrom_ok {timestampMs : Int} (hcount : 0 < count)
    (h : arrayFrom count (fun index => fromParts timestampMs ((r : Int) + index)) = .ok ids) :
    timestampMs = timestampMs.toNat ∧ Batch timestampMs.toNat r count ids := by
  unfold arrayFrom at h
  split at h
  · cases h
  -- The last identifier has the largest tail.
  obtain ⟨last, hlast⟩ := Fallible.mapAll_each h (count - 1) (List.mem_range.mpr (by omega))
  obtain ⟨t, tail, ht, htail, htime, hroom, -⟩ := fromParts_inv hlast
  have himages := Fallible.mapAll_map (g := fun index => uuidText (compose timestampMs.toNat (r + index)))
    (k := id) h (by
      intro index identifier hmade
      obtain ⟨t', r', ht', hr', -, -, rfl⟩ := fromParts_inv hmade
      have hnat : r' = r + index := by omega
      rw [ht', hnat]
      rfl)
  refine ⟨by omega, ⟨by simpa using himages, by omega, by omega⟩⟩

theorem sequential_some {previous : Option Parts} {timestampMs : Int} (hcount : 0 < count)
    (h : sequential previous timestampMs count = .ok (some ids)) : ∃ last, previous = some last ∧
      Batch last.timestampMs (last.randomValue + 1) count ids := by
  unfold sequential at h
  split at h
  · cases h
  · next last =>
    split at h
    · cases h
    · split at h
      · cases h
      · obtain ⟨made, hmade, h⟩ := Fallible.bind_ok_iff.mp h
        cases h
        exact ⟨last, rfl, (@arrayFrom_ok (last.randomValue + 1) count ids last.timestampMs hcount
          (by exact_mod_cast hmade)).2⟩

theorem sequential_none {previous : Option Parts} {timestampMs : Int}
    (h : sequential previous timestampMs count = .ok none) :
    ∀ last, previous = some last → (last.timestampMs : Int) < timestampMs := by
  rintro last rfl
  unfold sequential at h
  dsimp only at h
  split at h
  · assumption
  · split at h
    · cases h
    · obtain ⟨made, -, h⟩ := Fallible.bind_ok_iff.mp h
      cases h

theorem randomBatchFrom_ok {timestampMs : Int} {entropy : Entropy} {attempts : List Nat}
    (hcount : 0 < count) (h : randomBatchFrom timestampMs count entropy attempts = .ok ids) :
    ∃ r, timestampMs = timestampMs.toNat ∧ Batch timestampMs.toNat r count ids := by
  induction attempts with
  | nil => cases h
  | cons attempt attempts ih =>
    obtain ⟨source, -, h⟩ := Fallible.bind_ok_iff.mp h
    cases source with
    | none => cases h
    | some bytes =>
      dsimp only at h
      split at h
      · cases h
      · split at h
        · exact ⟨tail bytes, arrayFrom_ok hcount h⟩
        · exact ih h

/-! ## The pending identifiers -/

theorem mem_parsed {pendingIds : List String} :
    p ∈ parsed pendingIds ↔ ∃ identifier ∈ pendingIds, parts identifier = .ok p := by
  unfold parsed
  rw [List.mem_filterMap]
  constructor
  · rintro ⟨identifier, hmem, hparts⟩
    refine ⟨identifier, hmem, ?_⟩
    cases hfields : parts identifier with
    | error message => simp [hfields, Except.toOption] at hparts
    | ok fields => simpa [hfields, Except.toOption] using hparts
  · rintro ⟨identifier, hmem, hparts⟩
    exact ⟨identifier, hmem, by rw [hparts]; rfl⟩

theorem laterOf_some (latest : Option Parts) (item : Parts) : ∃ last,
    laterOf latest item = some last ∧ (last = item ∨ latest = some last) ∧
      item.integer ≤ last.integer ∧ ∀ earlier, latest = some earlier →
        earlier.integer ≤ last.integer := by
  unfold laterOf
  cases latest with
  | none => exact ⟨item, rfl, .inl rfl, le_rfl, by simp⟩
  | some earlier =>
    by_cases hlater : item.integer > earlier.integer
    · exact ⟨item, if_pos hlater, .inl rfl, le_rfl, by simpa using hlater.le⟩
    · exact ⟨earlier, if_neg hlater, .inr rfl, not_lt.mp hlater, by simp⟩

/-- The last of the items is one of them, and none is above it. -/
theorem foldl_laterOf (items : List Parts) (first : Option Parts) :
    ∀ p, (p ∈ items ∨ first = some p) → ∃ last, items.foldl laterOf first = some last ∧
      (last ∈ items ∨ first = some last) ∧ p.integer ≤ last.integer := by
  induction items generalizing first with
  | nil =>
    intro p hp
    obtain hp | rfl := hp
    · cases hp
    · exact ⟨p, rfl, .inr rfl, le_rfl⟩
  | cons item items ih =>
    intro p hp
    obtain ⟨next, hnext, hfrom, hitem, hfirst⟩ := laterOf_some first item
    rw [List.foldl_cons, hnext]
    have hmember : ∀ last, (last ∈ items ∨ some next = some last) →
        last ∈ item :: items ∨ first = some last := by
      intro last hlast
      obtain hmem | heq := hlast
      · exact .inl (List.mem_cons_of_mem _ hmem)
      · cases heq
        obtain rfl | heq := hfrom
        · exact .inl List.mem_cons_self
        · exact .inr heq
    have hnextLe : ∀ q : Parts, q.integer ≤ next.integer → ∃ last,
        items.foldl laterOf (some next) = some last ∧ (last ∈ item :: items ∨ first = some last) ∧
          q.integer ≤ last.integer := by
      intro q hq
      obtain ⟨last, hfold, hlast, hle⟩ := ih (some next) next (.inr rfl)
      exact ⟨last, hfold, hmember last hlast, hq.trans hle⟩
    obtain hmem | heq := hp
    · obtain rfl | hmem := List.mem_cons.mp hmem
      · exact hnextLe _ hitem
      · obtain ⟨last, hfold, hlast, hle⟩ := ih (some next) p (.inl hmem)
        exact ⟨last, hfold, hmember last hlast, hle⟩
    · exact hnextLe p (hfirst p heq)

theorem latestPending_above {pendingIds : List String} (h : p ∈ parsed pendingIds) :
    ∃ last, latestPending pendingIds = some last ∧ last ∈ parsed pendingIds ∧
      p.integer ≤ last.integer := by
  obtain ⟨last, hlast, hmem, hle⟩ := foldl_laterOf (parsed pendingIds) none p (.inl h)
  exact ⟨last, hlast, hmem.resolve_right (by simp), hle⟩

theorem latestPending_mem {pendingIds : List String} (h : latestPending pendingIds = some p) :
    p ∈ parsed pendingIds := by
  cases hitems : parsed pendingIds with
  | nil =>
    rw [latestPending, hitems] at h
    cases h
  | cons item items =>
    have hitem : item ∈ parsed pendingIds := by
      rw [hitems]
      exact List.mem_cons_self
    obtain ⟨last, hlast, hmem, -⟩ := latestPending_above hitem
    rw [h] at hlast
    cases hlast
    rwa [← hitems]

/-! ## One reservation -/

variable {timestampMs asked : Int} {stored : Option String} {pendingIds : List String}
  {entropy : Entropy}

/-- A text of version 7 is composed of its fields. -/
theorem integer_of_parts (h : parts identifier = .ok p) :
    p.timestampMs < 2 ^ 48 ∧ p.randomValue < 2 ^ 74 ∧
      p.integer = compose p.timestampMs p.randomValue := by
  obtain ⟨hversion, hsplit⟩ := parts_ok h
  obtain ⟨ht, hr, hcompose⟩ := compose_split hversion
  rw [← hsplit] at ht hr hcompose
  exact ⟨ht, hr, hcompose.symm⟩

/-- What a reservation starts from: the stored identifier, or else the last pending
one, with no other known identifier above it. -/
structure Start (stored : Option String) (pendingIds : List String) (previous : Option Parts) :
    Prop where
  known : ∀ last, previous = some last → ∃ identifier, parts identifier = .ok last
  stored : ∀ identifier, stored = some identifier → ∃ last, parts identifier = .ok last ∧
    previous = some last
  pending : ∀ p ∈ parsed pendingIds, ∃ last, previous = some last ∧ p.integer ≤ last.integer

theorem start_of {first : Option Parts} (hstored : storedParts stored = .ok first)
    (hpredates : ¬ predates first (latestPending pendingIds) = true) :
    Start stored pendingIds (first.or (latestPending pendingIds)) := by
  cases stored with
  | none =>
    cases hstored
    refine ⟨?_, by simp, ?_⟩
    · intro last hlast
      obtain ⟨identifier, -, hparts⟩ := mem_parsed.mp (latestPending_mem hlast)
      exact ⟨identifier, hparts⟩
    · intro p hp
      obtain ⟨last, hlast, -, hle⟩ := latestPending_above hp
      exact ⟨last, hlast, hle⟩
  | some text =>
    obtain ⟨fields, hfields, hstored⟩ := Fallible.bind_ok_iff.mp hstored
    cases hstored
    refine ⟨?_, ?_, ?_⟩
    · intro last hlast
      cases hlast
      exact ⟨text, hfields⟩
    · intro identifier heq
      cases heq
      exact ⟨fields, hfields, rfl⟩
    · intro p hp
      obtain ⟨last, hlast, -, hle⟩ := latestPending_above hp
      have hnot : ¬ last.integer > fields.integer := by simpa [predates, hlast] using hpredates
      exact ⟨fields, rfl, hle.trans (not_lt.mp hnot)⟩

/-- A reservation that returns gives one batch, above all that it starts from. -/
theorem reserve_batch (h : reserve timestampMs asked stored pendingIds entropy = .ok ids) :
    0 < asked ∧ ∃ previous t r, Start stored pendingIds previous ∧ Batch t r asked.toNat ids ∧
      ∀ last, previous = some last → last.integer < compose t r := by
  unfold reserve at h
  split at h
  · cases h
  · next hrange =>
    simp only [not_or, not_le, not_lt] at hrange
    obtain ⟨-, htime, -, -, hasked, -⟩ := hrange
    have hcount : 0 < asked.toNat := by omega
    obtain ⟨first, hfirst, h⟩ := Fallible.bind_ok_iff.mp h
    dsimp only at h
    split at h
    · cases h
    · next hpredates =>
      have hstart := start_of hfirst hpredates
      obtain ⟨continued, hcontinued, h⟩ := Fallible.bind_ok_iff.mp h
      refine ⟨hasked, first.or (latestPending pendingIds), ?_⟩
      cases continued with
      | some batch =>
        cases h
        obtain ⟨last, hlast, hbatch⟩ := sequential_some hcount hcontinued
        refine ⟨_, _, hstart, hbatch, ?_⟩
        intro last' hlast'
        rw [hlast] at hlast'
        cases hlast'
        obtain ⟨identifier, hparts⟩ := hstart.known last hlast
        obtain ⟨-, hr, hinteger⟩ := integer_of_parts hparts
        rw [hinteger]
        exact compose_lt hr (hbatch.tail_lt hcount) (.inr ⟨rfl, by omega⟩)
      | none =>
        obtain ⟨r, -, hbatch⟩ := randomBatchFrom_ok hcount h
        refine ⟨_, r, hstart, hbatch, ?_⟩
        intro last hlast
        obtain ⟨identifier, hparts⟩ := hstart.known last hlast
        obtain ⟨-, hr, hinteger⟩ := integer_of_parts hparts
        have hafter := sequential_none hcontinued last hlast
        rw [hinteger]
        exact compose_lt hr (hbatch.tail_lt hcount) (.inl (by omega))

/-- What holds of the identifiers of a reservation. -/
structure Reserved (asked : Int) (stored : Option String) (pendingIds ids : List String) : Prop where
  length : (ids.length : Int) = asked
  increasing : ids.Pairwise Less
  canonical : ∀ id ∈ ids, Canonical id
  stored : ∀ last, stored = some last → ∀ id ∈ ids, Less last id
  pending : ∀ earlier ∈ pendingIds, ∀ p, parts earlier = .ok p → ∀ id ∈ ids, Less earlier id

theorem Reserved.nodup (h : Reserved asked stored pendingIds ids) : ids.Nodup :=
  h.increasing.imp Less.ne

theorem Reserved.ne_nil (h : Reserved asked stored pendingIds ids) (hasked : 0 < asked) :
    ids ≠ [] := by
  rintro rfl
  have hlength := h.length
  simp only [List.length_nil] at hlength
  omega

theorem reserve_reserved (h : reserve timestampMs asked stored pendingIds entropy = .ok ids) :
    0 < asked ∧ Reserved asked stored pendingIds ids := by
  obtain ⟨hasked, previous, t, r, hstart, hbatch, habove⟩ := reserve_batch h
  refine ⟨hasked, ?_, hbatch.increasing, ?_, ?_, ?_⟩
  · rw [hbatch.length]
    omega
  · intro id hid
    obtain ⟨index, -, hcanonical, -⟩ := hbatch.mem hid
    exact hcanonical
  · intro last hlast id hid
    obtain ⟨fields, hfields, hprevious⟩ := hstart.stored last hlast
    exact hbatch.above (habove fields hprevious) hfields hid
  · intro earlier hearlier p hp id hid
    obtain ⟨last, hprevious, hle⟩ := hstart.pending p (mem_parsed.mpr ⟨earlier, hearlier, hp⟩)
    exact hbatch.above (hle.trans_lt (habove last hprevious)) hp hid

/-! ## Runs of reservations -/

structure Reservation where
  timestampMs : Int
  count : Int
  pendingIds : List String
  entropy : Entropy

/-- The stored identifier, and all that were ever returned. -/
structure Issued where
  stored : Option String
  issued : List String

/-- A reservation of the next identifiers, the last of which is stored. -/
def reserveNext (s : Issued) (next : Reservation) : Issued :=
  match reserve next.timestampMs next.count s.stored next.pendingIds next.entropy with
  | .ok ids => ⟨ids.getLast?, s.issued ++ ids⟩
  | .error _ => s

/-- The returned identifiers increase from the first stored one to the last. -/
structure Increasing (first : Option String) (s : Issued) : Prop where
  issued : s.issued.Pairwise Less
  above : ∀ last, first = some last → ∀ id ∈ s.issued, Less last id
  stored : s.issued = [] ∧ s.stored = first ∨ ∃ before last, s.issued = before ++ [last] ∧
    s.stored = some last

theorem Increasing.next {first : Option String} {s : Issued} (h : Increasing first s)
    (next : Reservation) : Increasing first (reserveNext s next) := by
  unfold reserveNext
  cases hreserve : reserve next.timestampMs next.count s.stored next.pendingIds next.entropy with
  | error message => exact h
  | ok ids =>
    obtain ⟨hasked, hreserved⟩ := reserve_reserved hreserve
    obtain ⟨before, last, hids⟩ : ∃ before last, ids = before ++ [last] :=
      (List.eq_nil_or_concat' ids).resolve_left (hreserved.ne_nil hasked)
    -- Every identifier returned before is at most the stored one.
    have hlater : ∀ earlier ∈ s.issued, ∀ id ∈ ids, Less earlier id := by
      intro earlier hearlier id hid
      obtain ⟨hnil, -⟩ | ⟨start, final, hissued, hstored⟩ := h.stored
      · rw [hnil] at hearlier
        cases hearlier
      · have hfinal := hreserved.stored final hstored id hid
        have hpairwise := h.issued
        rw [hissued] at hearlier hpairwise
        obtain hmem | heq := List.mem_append.mp hearlier
        · exact ((List.pairwise_append.mp hpairwise).2.2 earlier hmem final (by simp)).trans hfinal
        · rw [List.mem_singleton.mp heq]
          exact hfinal
    refine ⟨?_, ?_, ?_⟩
    · exact List.pairwise_append.mpr ⟨h.issued, hreserved.increasing, hlater⟩
    · intro last hlast id hid
      obtain hmem | hmem := List.mem_append.mp hid
      · exact h.above last hlast id hmem
      · obtain ⟨-, hstored⟩ | ⟨start, final, hissued, hstored⟩ := h.stored
        · exact hreserved.stored last (hstored.trans hlast) id hmem
        · have hmember : final ∈ s.issued := by
            rw [hissued]
            simp
          exact (h.above last hlast final hmember).trans (hreserved.stored final hstored id hmem)
    · refine .inr ⟨s.issued ++ before, last, ?_, ?_⟩
      · rw [hids, List.append_assoc]
      · rw [hids]
        simp

/-! ## The workspace transactions -/

/-- The part of Core's calls that the storage makes itself. -/
def reserveUuid7 (entropy : Entropy) (wallMs count : Nat) (last : Option String)
    (pendingIds : List String) : Except String (List String) :=
  reserve wallMs count last pendingIds entropy

/-- The reserved identifiers are apart from the pending ones. -/
theorem reserve_minted {wallMs : Nat} {last : Option String}
    (h : reserveUuid7 entropy wallMs count last pendingIds = .ok ids) : ∀ id ∈ ids, id ∉ pendingIds := by
  intro id hid hpending
  obtain ⟨-, hreserved⟩ := reserve_reserved h
  obtain ⟨p, hp⟩ := parts_canonical (hreserved.canonical id hid)
  exact (hreserved.pending id hpending p hp id hid).ne rfl

/-- A mutation of the workspace that is stored has reserved its identifiers above
the stored one. -/
theorem mutation_reserved {core : Core} (hcore : core.reserveUuid7 = reserveUuid7 entropy)
    {input : MutationInput} {database written : Database} {plan : MutationPlan}
    (h : planWorkspaceMutation core input database = .ok (written, plan)) :
    ∃ wallMs ids, reserveUuid7 entropy wallMs (workspaceIdentityCount input) database.uuidV7
      database.pendingIds = .ok ids := by
  obtain ⟨request, -, hasked⟩ := (planWorkspaceMutation_ok h).asked
  obtain ⟨wallMs, hreserved⟩ := hasked.reserved
  rw [hcore] at hreserved
  exact ⟨wallMs, request.commandUuids, hreserved⟩

/-- `fromParts` and `parts` undo each other on canonical identifiers; a reservation
that returns gives as many identifiers as it was asked for, in increasing order and
above the stored one and every pending one of version 7; all identifiers of a run of
reservations increase; and where a reservation throws, nothing is stored. -/
theorem reservations_increase :
    (∀ t r : Nat, t ≤ MAX_TIMESTAMP_MS → r ≤ RANDOM_MAX → ∃ identifier,
      fromParts t r = .ok identifier ∧ Canonical identifier ∧
        parts identifier = .ok ⟨compose t r, t, r⟩) ∧
    (∀ identifier, Canonical identifier → ∃ p, parts identifier = .ok p ∧
      p.timestampMs ≤ MAX_TIMESTAMP_MS ∧ p.randomValue ≤ RANDOM_MAX ∧
        fromParts p.timestampMs p.randomValue = .ok identifier) ∧
    (∀ timestampMs asked stored pendingIds entropy ids,
      reserve timestampMs asked stored pendingIds entropy = .ok ids →
        Reserved asked stored pendingIds ids ∧ ids.Nodup) ∧
    (∀ first reservations, Increasing first (Traces.run reserveNext ⟨first, []⟩ reservations)) ∧
    (∀ s next message, reserve next.timestampMs next.count s.stored next.pendingIds next.entropy =
      .error message → reserveNext s next = s) ∧
    ∀ core entropy, core.reserveUuid7 = reserveUuid7 entropy →
      ∀ input database written plan,
        planWorkspaceMutation core input database = .ok (written, plan) →
          ∃ wallMs ids, reserveUuid7 entropy wallMs (workspaceIdentityCount input) database.uuidV7
            database.pendingIds = .ok ids := by
  refine ⟨fun t r => fromParts_parts, fun identifier => parts_fromParts, ?_, ?_, ?_, ?_⟩
  · intro timestampMs asked stored pendingIds entropy ids h
    have hreserved := (reserve_reserved h).2
    exact ⟨hreserved, hreserved.nodup⟩
  · intro first reservations
    exact Traces.always (fun s next h => h.next next) ⟨.nil, by simp, .inl ⟨rfl, rfl⟩⟩
  · intro s next message h
    rw [reserveNext, h]
  · intro core entropy hcore input database written plan h
    exact mutation_reserved hcore h

end Batches

end Pomodorough.Web.StorageUuid
