import Pomodorough.Library.Sha256
import Pomodorough.Library.Fallible

/-! # Frames of the Iroh streams

A frame is the length of its body, a message authentication code and the body. The
decoder reads one frame from a stream and leaves what follows it unread, where the
protocol asks for the end of the stream. -/
namespace Pomodorough.Iroh
open Pomodorough.Library
open Pomodorough.Library.Sha256

/-- The bytes of a text in ASCII. -/
def ascii (s : String) : Bytes := s.toList.map fun c => UInt8.ofNat c.toNat

def MaxFrameBytes : Nat := 16777216

def frameDomain : Bytes := ascii "pomodorough-iroh-frame-v1\x00"

/-! ## The length field -/

/-- `binary.BigEndian.PutUint32`. -/
def putUint32 (n : Nat) : Bytes :=
  [UInt8.ofNat (n / 16777216), UInt8.ofNat (n / 65536), UInt8.ofNat (n / 256), UInt8.ofNat n]

/-- `binary.BigEndian.Uint32`. -/
def uint32 : Bytes → Nat
  | a :: b :: c :: d :: _ => a.toNat * 16777216 + b.toNat * 65536 + c.toNat * 256 + d.toNat
  | _ => 0

/-! ## Encoding and decoding -/

inductive FrameError where
  | secretLength
  | bodyLength
  | header
  | body
  | authentication
deriving DecidableEq, Repr

/-- `frameMAC`. -/
def frameMAC (secret body : Bytes) : Bytes := hmac secret (frameDomain ++ body)

/-- `EncodeFrame`. -/
def encodeFrame (secret body : Bytes) : Except FrameError Bytes :=
  if secret.length ≠ 32 then .error .secretLength
  else if body.length = 0 ∨ body.length > MaxFrameBytes then .error .bodyLength
  else .ok (putUint32 body.length ++ (frameMAC secret body ++ body))

/-- `io.ReadFull`: so many bytes, and the stream after them. -/
def readFull (size : Nat) (stream : Bytes) (short : FrameError) :
    Except FrameError (Bytes × Bytes) :=
  if stream.length < size then .error short else .ok (stream.take size, stream.drop size)

/-- `DecodeFrame`: the body, and what is left of the stream. -/
def decodeFrame (stream secret : Bytes) : Except FrameError (Bytes × Bytes) :=
  if secret.length ≠ 32 then .error .secretLength
  else do
    let (header, stream) ← readFull 36 stream .header
    let size := uint32 (header.take 4)
    if size = 0 ∨ size > MaxFrameBytes then .error .bodyLength
    else do
      let (body, stream) ← readFull size stream .body
      if header.drop 4 ≠ frameMAC secret body then .error .authentication
      else .ok (body, stream)

/-- The frame that the clients agree on. -/
example : (encodeFrame ((List.range 32).map UInt8.ofNat)
    (ascii "\x7b\"kind\":\"hello\"\x7d")).toOption.map (List.take 12) =
    some [0, 0, 0, 16, 0xd9, 0xf0, 0x15, 0x10, 0xc6, 0xce, 0x30, 0x06] := by decide +kernel

/-! ## What the decoder accepts -/

section
variable {secret body frame stream rest : Bytes} {n size : Nat} {short : FrameError}

theorem uint32_putUint32 (h : n < 4294967296) : uint32 (putUint32 n) = n := by
  simp only [putUint32, uint32, UInt8.toNat_ofNat']
  omega

theorem putUint32_uint32 (h : stream.length = 4) : putUint32 (uint32 stream) = stream := by
  match stream, h with
  | [a, b, c, d], _ =>
    have ha := a.toNat_lt
    have hb := b.toNat_lt
    have hc := c.toNat_lt
    have hd := d.toNat_lt
    have hbyte : ∀ (x : UInt8) (m : Nat), m % 256 = x.toNat → UInt8.ofNat m = x := by
      intro x m hm
      apply UInt8.toNat_inj.mp
      rw [UInt8.toNat_ofNat']
      exact hm
    simp only [putUint32, uint32]
    rw [hbyte a _ (by omega), hbyte b _ (by omega), hbyte c _ (by omega), hbyte d _ (by omega)]

@[simp] theorem length_putUint32 : (putUint32 n).length = 4 := rfl

theorem length_frameMAC : (frameMAC secret body).length = 32 := length_hmac _ _

theorem readFull_ok_iff {read : Bytes} : readFull size stream short = .ok (read, rest) ↔
    read.length = size ∧ stream = read ++ rest := by
  unfold readFull
  constructor
  · intro h
    split at h
    · cases h
    · next hlength =>
      cases h
      exact ⟨by rw [List.length_take]; omega, (List.take_append_drop size stream).symm⟩
  · rintro ⟨rfl, rfl⟩
    rw [if_neg (by simp), List.take_left, List.drop_left]

theorem encodeFrame_ok_iff : encodeFrame secret body = .ok frame ↔ secret.length = 32 ∧
    0 < body.length ∧ body.length ≤ MaxFrameBytes ∧
      frame = putUint32 body.length ++ (frameMAC secret body ++ body) := by
  unfold encodeFrame
  constructor
  · intro h
    split at h
    · cases h
    · next hsecret =>
      split at h
      · cases h
      · next hbody =>
        cases h
        exact ⟨by omega, by omega, by omega, rfl⟩
  · rintro ⟨hsecret, hpositive, hmax, rfl⟩
    rw [if_neg (by omega), if_neg (by omega)]

/-- The decoder reads a frame from the front of the stream. -/
theorem decodeFrame_ok_iff : decodeFrame stream secret = .ok (body, rest) ↔
    ∃ frame, encodeFrame secret body = .ok frame ∧ stream = frame ++ rest := by
  constructor
  · intro h
    unfold decodeFrame at h
    split at h
    · cases h
    · next hsecret =>
      obtain ⟨⟨header, afterHeader⟩, hheader, h⟩ := Fallible.bind_ok_iff.mp h
      dsimp only at h
      split at h
      · cases h
      · next hsize =>
        obtain ⟨⟨read, afterBody⟩, hbody, h⟩ := Fallible.bind_ok_iff.mp h
        dsimp only at h
        split at h
        · cases h
        · next hmac =>
          cases h
          obtain ⟨hlength, rfl⟩ := readFull_ok_iff.mp hheader
          obtain ⟨hread, rfl⟩ := readFull_ok_iff.mp hbody
          have hprefix : (header.take 4).length = 4 := by
            rw [List.length_take]
            omega
          refine ⟨_, encodeFrame_ok_iff.mpr ⟨by omega, by omega, by omega, rfl⟩, ?_⟩
          rw [hread, putUint32_uint32 hprefix, ← not_ne_iff.mp hmac, ← List.append_assoc,
            ← List.append_assoc, List.take_append_drop, List.append_assoc]
  · rintro ⟨frame, hframe, rfl⟩
    obtain ⟨hsecret, hpositive, hmax, rfl⟩ := encodeFrame_ok_iff.mp hframe
    have hsize : uint32 (putUint32 body.length) = body.length := uint32_putUint32 (by
      unfold MaxFrameBytes at hmax
      omega)
    have hheader : readFull 36 (putUint32 body.length ++ (frameMAC secret body ++ body) ++ rest)
        .header = .ok (putUint32 body.length ++ frameMAC secret body, body ++ rest) :=
      readFull_ok_iff.mpr ⟨by rw [List.length_append, length_putUint32, length_frameMAC],
        by simp only [List.append_assoc]⟩
    have hbody : readFull body.length (body ++ rest) .body = .ok (body, rest) :=
      readFull_ok_iff.mpr ⟨rfl, rfl⟩
    have htake : (putUint32 body.length ++ frameMAC secret body).take 4 = putUint32 body.length :=
      List.take_left' length_putUint32
    have hdrop : (putUint32 body.length ++ frameMAC secret body).drop 4 = frameMAC secret body :=
      List.drop_left' length_putUint32
    unfold decodeFrame
    rw [if_neg (by omega)]
    refine Fallible.bind_ok_iff.mpr ⟨_, hheader, ?_⟩
    dsimp only
    rw [htake, hsize, if_neg (by omega)]
    refine Fallible.bind_ok_iff.mpr ⟨_, hbody, ?_⟩
    dsimp only
    rw [hdrop, if_neg (by simp)]

/-- A stream is a frame and more than one in one way only. -/
theorem rest_eq_nil {body' : Bytes} (h : encodeFrame secret body = .ok frame)
    (h' : encodeFrame secret body' = .ok (frame ++ rest)) : rest = [] := by
  obtain ⟨-, -, hmax, hframe⟩ := encodeFrame_ok_iff.mp h
  obtain ⟨-, -, hmax', hframe'⟩ := encodeFrame_ok_iff.mp h'
  unfold MaxFrameBytes at hmax hmax'
  have hhead := congrArg (List.take 4) hframe'
  rw [hframe, List.append_assoc, List.take_left' length_putUint32,
    List.take_left' length_putUint32] at hhead
  have hlength := congrArg uint32 hhead
  rw [uint32_putUint32 (by omega), uint32_putUint32 (by omega)] at hlength
  have htotal := congrArg List.length hframe'
  rw [hframe] at htotal
  simp only [List.length_append, length_putUint32, length_frameMAC] at htotal
  exact List.length_eq_zero_iff.mp (by omega)

/-! ## The protocol's demand -/

/-- An encoded body is decoded, with nothing left of its frame. -/
def RoundTrip (secret body : Bytes) : Prop :=
  ∀ frame, encodeFrame secret body = .ok frame → decodeFrame frame secret = .ok (body, [])

/-- The stream is accepted where it is a frame as a whole. -/
def Exact (secret stream : Bytes) : Prop :=
  (∃ body rest, decodeFrame stream secret = .ok (body, rest)) ↔
    ∃ body, encodeFrame secret body = .ok stream

/-- The stream goes on after the body that its first bytes announce, and the code
before the body is that of the body. -/
def GoesOn (secret stream : Bytes) : Prop :=
  let size := uint32 (stream.take 4)
  secret.length = 32 ∧ 1 ≤ size ∧ size ≤ MaxFrameBytes ∧ 36 + size < stream.length ∧
    (stream.drop 4).take 32 = frameMAC secret ((stream.drop 36).take size)

instance (secret stream : Bytes) : Decidable (GoesOn secret stream) :=
  inferInstanceAs (Decidable (_ ∧ _))

theorem round_trip (secret body : Bytes) : RoundTrip secret body := by
  intro frame hframe
  exact decodeFrame_ok_iff.mpr ⟨frame, hframe, (List.append_nil frame).symm⟩

theorem goesOn_iff : GoesOn secret stream ↔
    ∃ body frame, encodeFrame secret body = .ok frame ∧ ∃ rest, rest ≠ [] ∧ stream = frame ++ rest := by
  constructor
  · rintro ⟨hsecret, hpositive, hmax, hlength, hmac⟩
    refine ⟨(stream.drop 36).take (uint32 (stream.take 4)), _, encodeFrame_ok_iff.mpr
      ⟨hsecret, ?_, ?_, rfl⟩, stream.drop (36 + uint32 (stream.take 4)), ?_, ?_⟩
    · rw [List.length_take, List.length_drop]
      omega
    · rw [List.length_take]
      omega
    · rw [← List.length_pos_iff, List.length_drop]
      omega
    · have hsize : ((stream.drop 36).take (uint32 (stream.take 4))).length =
          uint32 (stream.take 4) := by
        rw [List.length_take, List.length_drop]
        omega
      have hprefix : (stream.take 4).length = 4 := by
        rw [List.length_take]
        omega
      rw [hsize, putUint32_uint32 hprefix, ← hmac]
      conv_lhs => rw [← List.take_append_drop 4 stream, ← List.take_append_drop 32 (stream.drop 4),
        List.drop_drop, ← List.take_append_drop (uint32 (stream.take 4)) (stream.drop 36),
        List.drop_drop]
      simp only [List.append_assoc]
  · rintro ⟨body, frame, hframe, rest, hrest, rfl⟩
    obtain ⟨hsecret, hpositive, hmax, rfl⟩ := encodeFrame_ok_iff.mp hframe
    have hpos := List.length_pos_iff.mpr hrest
    have hhead : (putUint32 body.length ++ (frameMAC secret body ++ body) ++ rest).take 4 =
        putUint32 body.length := by
      rw [List.append_assoc, List.take_left' length_putUint32]
    have hsize : uint32 (putUint32 body.length) = body.length := uint32_putUint32 (by
      unfold MaxFrameBytes at hmax
      omega)
    have hdrop : (putUint32 body.length ++ (frameMAC secret body ++ body) ++ rest).drop 4 =
        frameMAC secret body ++ (body ++ rest) := by
      rw [List.append_assoc, List.drop_left' length_putUint32, List.append_assoc]
    have hdropBody : (putUint32 body.length ++ (frameMAC secret body ++ body) ++ rest).drop 36 =
        body ++ rest := by
      rw [show 36 = 4 + 32 from rfl, ← List.drop_drop, hdrop, List.drop_left' length_frameMAC]
    unfold GoesOn
    simp only [hhead, hsize, hdrop, hdropBody, List.take_left' length_frameMAC, List.take_left]
    refine ⟨hsecret, hpositive, hmax, ?_, trivial⟩
    simp only [List.length_append, length_putUint32, length_frameMAC]
    omega

/-- Frames make the round trip, and the decoder is exact on a stream unless the
stream goes on after a frame. -/
theorem frames_exact_iff (secret stream : Bytes) :
    ((∀ body, RoundTrip secret body) ∧ Exact secret stream) ↔ ¬ GoesOn secret stream := by
  rw [goesOn_iff]
  constructor
  · rintro ⟨-, hexact⟩ ⟨body, frame, hframe, rest, hrest, rfl⟩
    obtain ⟨body', hbody'⟩ := hexact.mp ⟨body, rest, decodeFrame_ok_iff.mpr ⟨frame, hframe, rfl⟩⟩
    exact hrest (rest_eq_nil hframe hbody')
  · intro hend
    refine ⟨round_trip secret, ?_, ?_⟩
    · rintro ⟨body, rest, hdecode⟩
      obtain ⟨frame, hframe, rfl⟩ := decodeFrame_ok_iff.mp hdecode
      obtain rfl : rest = [] := by
        by_contra hrest
        exact hend ⟨body, frame, hframe, rest, hrest, rfl⟩
      rw [List.append_nil]
      exact ⟨body, hframe⟩
    · rintro ⟨body, hbody⟩
      exact ⟨body, [], round_trip secret body stream hbody⟩

end

/-- The frame of the body `{}` under a secret of zeros, and one byte more. -/
def trailingStream : Bytes :=
  putUint32 2 ++ (frameMAC (List.replicate 32 0) (ascii "\x7b\x7d") ++ ascii "\x7b\x7d") ++ [0]

theorem frames_exact_trailing : ¬ ((∀ body, RoundTrip (List.replicate 32 0) body) ∧
    Exact (List.replicate 32 0) trailingStream) := by
  rintro ⟨-, hexact⟩
  have hframe : encodeFrame (List.replicate 32 0) (ascii "\x7b\x7d") = .ok (putUint32 2 ++
      (frameMAC (List.replicate 32 0) (ascii "\x7b\x7d") ++ ascii "\x7b\x7d")) :=
    encodeFrame_ok_iff.mpr ⟨rfl, by decide, by decide, rfl⟩
  obtain ⟨body, hbody⟩ := hexact.mp ⟨_, [0], decodeFrame_ok_iff.mpr ⟨_, hframe, rfl⟩⟩
  exact absurd (rest_eq_nil hframe hbody) (by simp)

end Pomodorough.Iroh
