import Mathlib.Data.Prod.Lex
import Mathlib.Order.Defs.LinearOrder
import Pomodorough.Library.Groupings
import Pomodorough.Web.WorkspaceCore

/-! # Clock offsets

Tabs measure the server's clock and keep the latest sample. What is stored may be
anything an older version wrote, so a sample's parts are values of the host, of
which the safe integers alone are valid. -/
namespace Pomodorough.Web.ClockOffsets
open Pomodorough.Library.Fallible
open Pomodorough.Library.Groupings

/-! ## The source -/

/-- A part of a stored record: a whole number, or another value or none. -/
inductive Component where
  | number (n : Int)
  | other
  deriving DecidableEq, Repr

/-- The number compared. The source compares parts that have been found to be numbers. -/
def Component.value : Component → Int
  | .number n => n
  | .other => 0

/-- `Number.isSafeInteger` -/
def Component.isSafeInteger : Component → Prop
  | .number n => n.natAbs ≤ MAX_SAFE_INTEGER
  | .other => False

instance (part : Component) : Decidable part.isSafeInteger := by
  cases part <;> unfold Component.isSafeInteger <;> infer_instance

def validInteger (part : Component) (minimum : Int)
    (maximum : Int := (MAX_SAFE_INTEGER : Int)) : Prop :=
  part.isSafeInteger ∧ minimum ≤ part.value ∧ part.value ≤ maximum

instance (part : Component) (minimum maximum : Int) :
    Decidable (validInteger part minimum maximum) :=
  inferInstanceAs (Decidable (_ ∧ _))

structure Record where
  offsetMs : Component
  uncertaintyMs : Component
  sampledAtWallMs : Component
  requestSequence : Component
  receivedAtWallMs : Component
  deriving DecidableEq, Repr

/-- What is stored or measured: null or undefined, something that is not an object, or
an object. -/
inductive Sample where
  | missing
  | other
  | object (record : Record)
  deriving DecidableEq, Repr

/-- The sum of two safe integers is exact when it is below `2 ^ 53`, and it is rounded to
no less than that when it is not. -/
def validClockSample : Sample → Prop
  | .object sample =>
    sample.offsetMs.isSafeInteger ∧
      validInteger sample.uncertaintyMs 0 MAX_CLOCK_UNCERTAINTY_MS ∧
      validInteger sample.sampledAtWallMs 1 ∧ validInteger sample.requestSequence 1 ∧
      validInteger sample.receivedAtWallMs 1 ∧
      ¬sample.receivedAtWallMs.value < sample.sampledAtWallMs.value ∧
      (Component.number (sample.sampledAtWallMs.value + sample.offsetMs.value)).isSafeInteger ∧
      0 < sample.sampledAtWallMs.value + sample.offsetMs.value
  | _ => False

instance (sample : Sample) : Decidable (validClockSample sample) := by
  cases sample <;> unfold validClockSample <;> infer_instance

def Sample.requestSequence : Sample → Int
  | .object sample => sample.requestSequence.value
  | _ => 0

def Sample.receivedAtWallMs : Sample → Int
  | .object sample => sample.receivedAtWallMs.value
  | _ => 0

def Sample.uncertaintyMs : Sample → Int
  | .object sample => sample.uncertaintyMs.value
  | _ => 0

def latestClockOffset (stored incoming : Sample) : Except StorageError Sample :=
  if incoming = .missing then .ok (if validClockSample stored then stored else .missing)
  else do
    check (validClockSample incoming) .clockRange
    if validClockSample stored ∧
        (stored.requestSequence > incoming.requestSequence ∨
          stored.requestSequence = incoming.requestSequence ∧
            (stored.receivedAtWallMs > incoming.receivedAtWallMs ∨
              stored.receivedAtWallMs = incoming.receivedAtWallMs ∧
                stored.uncertaintyMs ≤ incoming.uncertaintyMs))
    then .ok stored else .ok incoming

/-! ## The latest sample -/

/-- The later request decides, then the later answer, then the smaller uncertainty. -/
def precedence (sample : Sample) : Int ×ₗ Int ×ₗ Int :=
  toLex (sample.requestSequence, toLex (sample.receivedAtWallMs, -sample.uncertaintyMs))

section
variable {stored incoming : Sample}

theorem precedence_le_iff {a b : Sample} : precedence a ≤ precedence b ↔
    b.requestSequence > a.requestSequence ∨ b.requestSequence = a.requestSequence ∧
      (b.receivedAtWallMs > a.receivedAtWallMs ∨ b.receivedAtWallMs = a.receivedAtWallMs ∧
        b.uncertaintyMs ≤ a.uncertaintyMs) := by
  simp [precedence, Prod.Lex.toLex_le_toLex, eq_comm]

theorem not_valid_missing : ¬validClockSample .missing := False.elim

theorem latestClockOffset_valid (hstored : validClockSample stored)
    (hincoming : validClockSample incoming) : latestClockOffset stored incoming =
      .ok (if precedence incoming ≤ precedence stored then stored else incoming) := by
  have hmissing : incoming ≠ .missing := by
    intro heq
    exact not_valid_missing (heq ▸ hincoming)
  simp only [latestClockOffset, hmissing, if_false, check, hincoming, if_true, hstored, true_and,
    precedence_le_iff]
  change (if _ then _ else _) = _
  split <;> rfl

/-- An invalid stored sample gives way to a valid one. -/
theorem latestClockOffset_invalid (hstored : ¬validClockSample stored)
    (hincoming : validClockSample incoming) :
    latestClockOffset stored incoming = .ok incoming := by
  have hmissing : incoming ≠ .missing := by
    intro heq
    exact not_valid_missing (heq ▸ hincoming)
  simp only [latestClockOffset, hmissing, if_false, check, hincoming, if_true, hstored, false_and]
  rfl

theorem keeps_valid {samples : List Sample} (hvalid : ∀ sample ∈ samples, validClockSample sample) :
    Keeps precedence latestClockOffset samples := by
  intro a ha b hb
  refine ⟨_, latestClockOffset_valid (hvalid a ha) (hvalid b hb), ?_⟩
  split
  · rename_i hle
    exact ⟨by simp, by simp [hle]⟩
  · rename_i hlt
    exact ⟨by simp, by simp [(le_of_not_ge hlt)]⟩

end

/-- Valid samples that do not tie are merged to the latest in every order and grouping. -/
theorem merging_agrees :
    (∀ t : Grouping Sample, (∀ sample ∈ t.members, validClockSample sample) →
      (∀ a ∈ t.members, ∀ b ∈ t.members, precedence a = precedence b → a = b) →
      ∃ latest, Greatest precedence t.members latest ∧
        ∀ t' : Grouping Sample, (∀ sample, sample ∈ t'.members ↔ sample ∈ t.members) →
          t'.merge latestClockOffset = .ok latest) ∧
    (∀ sample, validClockSample sample → latestClockOffset sample sample = .ok sample) ∧
    ∀ stored incoming, ¬validClockSample stored → validClockSample incoming →
      latestClockOffset stored incoming = .ok incoming := by
  refine ⟨fun t hvalid hties => t.merge_agrees (keeps_valid hvalid) hties, ?_, ?_⟩
  · intro sample hvalid
    simp [latestClockOffset_valid hvalid hvalid]
  · intro stored incoming hstored hincoming
    exact latestClockOffset_invalid hstored hincoming

/-- Two measurements of one request order by when they were received. -/
theorem merging_agrees_pair :
    let earlier : Sample := .object ⟨.number (-5), .number 20, .number 100, .number 3, .number 140⟩
    let later : Sample := .object ⟨.number 7, .number 40, .number 100, .number 3, .number 180⟩
    ∃ latest, Greatest precedence [earlier, later] latest ∧
      ∀ t : Grouping Sample, (∀ sample, sample ∈ t.members ↔ sample ∈ [earlier, later]) →
        t.merge latestClockOffset = .ok latest := by
  intro earlier later
  exact merging_agrees.1 (.merged (.single earlier) (.single later)) (by decide) (by decide)

/-! ## The samples of the storage -/

/-- A stored sample whose parts are whole numbers. -/
def ofStored : Option ClockSample → Sample
  | none => .missing
  | some sample => .object ⟨.number sample.offsetMs, .number sample.uncertaintyMs,
    .number sample.sampledAtWallMs, .number sample.requestSequence,
    .number sample.receivedAtWallMs⟩

theorem validClockSample_ofStored {sample : ClockSample} :
    validClockSample (ofStored (some sample)) ↔ Web.validClockSample sample := by
  simp only [validClockSample, ofStored, Web.validClockSample, validInteger, Web.validInteger,
    Component.isSafeInteger, Component.value, MAX_CLOCK_UNCERTAINTY_MS, MAX_SAFE_INTEGER,
    Int.natAbs_natCast]
  omega

theorem ofStored_filter (stored : Option ClockSample) :
    ofStored (stored.filter fun sample => Web.validClockSample sample) =
      if validClockSample (ofStored stored) then ofStored stored else .missing := by
  cases stored with
  | none => rfl
  | some sample =>
    rw [Option.filter_some]
    by_cases hvalid : Web.validClockSample sample
    · rw [if_pos (validClockSample_ofStored.mpr hvalid), if_pos (by simpa using hvalid)]
    · rw [if_neg (mt validClockSample_ofStored.mp hvalid), if_neg (by simpa using hvalid)]
      rfl

theorem precedence_ofStored {held sample : ClockSample} :
    precedence (ofStored (some sample)) ≤ precedence (ofStored (some held)) ↔
      sample.requestSequence < held.requestSequence ∨
        held.requestSequence = sample.requestSequence ∧
          (sample.receivedAtWallMs < held.receivedAtWallMs ∨
            held.receivedAtWallMs = sample.receivedAtWallMs ∧
              held.uncertaintyMs ≤ sample.uncertaintyMs) := by
  simp only [precedence_le_iff, ofStored, Sample.requestSequence, Sample.receivedAtWallMs,
    Sample.uncertaintyMs, Component.value]
  omega

/-- On such samples the storage's own definition is this one. -/
theorem latestClockOffset_ofStored (stored incoming : Option ClockSample) :
    latestClockOffset (ofStored stored) (ofStored incoming) =
      ofStored <$> Web.latestClockOffset stored incoming := by
  cases incoming with
  | none =>
    change Except.ok (if _ then _ else _) = Except.ok (ofStored (stored.filter _))
    rw [ofStored_filter]
  | some sample =>
    have hmissing : ofStored (some sample) ≠ .missing := by simp [ofStored]
    by_cases hincoming : Web.validClockSample sample
    · have hsample := validClockSample_ofStored.mpr hincoming
      have hcheck : Web.latestClockOffset stored (some sample) =
          match stored.filter fun sample => Web.validClockSample sample with
          | none => .ok (some sample)
          | some held =>
            if sample.requestSequence < held.requestSequence ∨
                held.requestSequence = sample.requestSequence ∧
                  (sample.receivedAtWallMs < held.receivedAtWallMs ∨
                    held.receivedAtWallMs = sample.receivedAtWallMs ∧
                      held.uncertaintyMs ≤ sample.uncertaintyMs)
            then .ok (some held) else .ok (some sample) := by
        simp only [Web.latestClockOffset, check, hincoming, if_true]
        rfl
      rw [hcheck]
      cases stored with
      | none =>
        have hnone : ¬validClockSample (ofStored none) := not_valid_missing
        rw [latestClockOffset_invalid hnone hsample]
        rfl
      | some held =>
        rw [Option.filter_some]
        by_cases hvalid : Web.validClockSample held
        · rw [latestClockOffset_valid (validClockSample_ofStored.mpr hvalid) hsample]
          simp only [hvalid, decide_true, if_true, precedence_ofStored]
          split <;> rfl
        · rw [latestClockOffset_invalid (mt validClockSample_ofStored.mp hvalid) hsample]
          simp only [hvalid, decide_false, Bool.false_eq_true, if_false]
          rfl
    · have hsample := mt validClockSample_ofStored.mp hincoming
      simp only [latestClockOffset, hmissing, if_false, check, hsample, Web.latestClockOffset,
        hincoming]
      rfl

end Pomodorough.Web.ClockOffsets
