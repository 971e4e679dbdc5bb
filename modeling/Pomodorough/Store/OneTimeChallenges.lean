import Pomodorough.Store.NativeChallenges

/-! # A challenge is spent once

What a consumption has committed is marked in memory until a consumption looks
at the marks at the expiry of its challenge or later, and recorded in its
account until that is deleted. A second session needs both to be lost. -/
namespace Pomodorough.Store.OneTimeChallenges
open Pomodorough.Library.AtomicSteps Pomodorough.Library.Fallible Pomodorough.Library.Serialized
open Pomodorough.Store.Records Pomodorough.Store.SharedCoreValidation
open Pomodorough.Store.SessionFamilies Pomodorough.Store.NativeChallenges

/-! ## Accounts -/

section
variable {accounts : List (String × Account)} {userID other : String} {account : Account}

theorem lookup_dropAccount_of_ne (h : other ≠ userID) :
    (dropAccount accounts userID).lookup other = accounts.lookup other := by
  induction accounts with
  | nil => rfl
  | cons entry accounts ih =>
    obtain ⟨key, value⟩ := entry
    unfold dropAccount at ih ⊢
    by_cases hkey : key = userID
    · have hne : (other == key) = false := by simp [hkey, h]
      simp only [List.filter_cons, hkey, ne_eq, not_true_eq_false, decide_false, List.lookup_cons]
      rw [← hkey, hne]
      simpa [hkey] using ih
    · simp only [List.filter_cons, ne_eq, hkey, not_false_eq_true, decide_true, if_true,
        List.lookup_cons, ih]

theorem lookup_putAccount_self :
    (putAccount accounts userID account).lookup userID = some account := by
  simp [putAccount]

theorem lookup_putAccount_of_ne (h : other ≠ userID) :
    (putAccount accounts userID account).lookup other = accounts.lookup other := by
  have hne : (other == userID) = false := by simp [h]
  have hdrop : (dropAccount accounts userID).lookup other = accounts.lookup other :=
    lookup_dropAccount_of_ne h
  unfold putAccount
  rw [List.lookup_cons, hne]
  exact hdrop

theorem mem_of_lookup (h : accounts.lookup userID = some account) :
    userID ∈ accounts.map Prod.fst := by
  induction accounts with
  | nil => cases h
  | cons entry accounts ih =>
    obtain ⟨key, value⟩ := entry
    rw [List.lookup_cons] at h
    by_cases hkey : userID = key
    · simp [hkey]
    · have hne : (userID == key) = false := by simp [hkey]
      rw [hne] at h
      exact List.mem_cons_of_mem _ (ih h)

end

/-! ## What was committed -/

/-- Every session that was committed is recorded in its account or marked. -/
structure Accounted (s : System) : Prop where
  keyed : ∀ row ∈ s.registry, ∀ row' ∈ s.registry, row.digest = row'.digest → row = row'
  nodup : (s.created.map fun creation => creation.digest).Nodup
  row : ∀ creation ∈ s.created, ∀ row ∈ s.registry, row.digest = creation.digest →
    row.processEpoch = creation.processEpoch ∧ row.expiresAtMs = creation.expiresAtMs
  recorded : ∀ creation ∈ s.created, creation.deleted = false → ∃ account,
    s.accounts.lookup creation.userID = some account ∧
      nativeChallengeConsumedInDatabase account creation.digest = true
  marked : ∀ creation ∈ s.created, creation.processEpoch = s.epoch → creation.outlived = false →
    s.spent creation.digest = some creation.expiresAtMs
  epoch : ∀ creation ∈ s.created, creation.processEpoch ≤ s.epoch

/-- The same creation later on. -/
structure Aged (creation creation' : Creation) : Prop where
  digest : creation'.digest = creation.digest
  userID : creation'.userID = creation.userID
  expiresAtMs : creation'.expiresAtMs = creation.expiresAtMs
  processEpoch : creation'.processEpoch = creation.processEpoch
  deleted : creation.deleted = true → creation'.deleted = true
  outlived : creation'.outlived = creation.outlived

theorem Aged.refl (creation : Creation) : Aged creation creation := ⟨rfl, rfl, rfl, rfl, id, rfl⟩

theorem Aged.trans {a b c : Creation} (h : Aged a b) (h' : Aged b c) : Aged a c :=
  ⟨h'.digest.trans h.digest, h'.userID.trans h.userID, h'.expiresAtMs.trans h.expiresAtMs,
    h'.processEpoch.trans h.processEpoch, fun hd => h'.deleted (h.deleted hd),
    h'.outlived.trans h.outlived⟩

/-- What happens while a call holds the registry's lock. -/
structure Apart (s t : System) : Prop where
  registry : t.registry = s.registry
  epoch : t.epoch = s.epoch
  spent : t.spent = s.spent
  created : ∀ creation' ∈ t.created, ∃ creation ∈ s.created, Aged creation creation'
  accounted : Accounted s → Accounted t

section
variable {s t u : System} {w w' : Waiting} {userID : String} {account : Account}

theorem Apart.refl (s : System) : Apart s s :=
  ⟨rfl, rfl, rfl, fun creation h => ⟨creation, h, .refl creation⟩, id⟩

theorem Apart.trans (h : Apart s t) (h' : Apart t u) : Apart s u := by
  refine ⟨h'.registry.trans h.registry, h'.epoch.trans h.epoch, h'.spent.trans h.spent,
    fun creation'' hmem => ?_, fun hs => h'.accounted (h.accounted hs)⟩
  obtain ⟨creation', hmem', haged'⟩ := h'.created creation'' hmem
  obtain ⟨creation, hmem, haged⟩ := h.created creation' hmem'
  exact ⟨creation, hmem, haged.trans haged'⟩

/-- A write of an account that keeps its receipts. -/
theorem apart_putAccount
    (h : ∀ old, s.accounts.lookup userID = some old → account.receipts = old.receipts) :
    Apart s { s with accounts := putAccount s.accounts userID account } := by
  refine ⟨rfl, rfl, rfl, fun creation hmem => ⟨creation, hmem, .refl creation⟩, fun hs => ?_⟩
  refine ⟨hs.keyed, hs.nodup, hs.row, fun creation hmem hdeleted => ?_, hs.marked, hs.epoch⟩
  obtain ⟨old, hold, hrecorded⟩ := hs.recorded creation hmem hdeleted
  by_cases heq : creation.userID = userID
  · refine ⟨account, by rw [heq]; exact lookup_putAccount_self, ?_⟩
    unfold nativeChallengeConsumedInDatabase at hrecorded ⊢
    rw [h old (heq ▸ hold)]
    exact hrecorded
  · exact ⟨old, (lookup_putAccount_of_ne heq).trans hold, hrecorded⟩

theorem apart_dropAccount : Apart s { s with
    accounts := dropAccount s.accounts userID
    created := s.created.map fun creation =>
      { creation with deleted := creation.deleted || creation.userID = userID } } := by
  refine ⟨rfl, rfl, rfl, fun creation' hmem => ?_, fun hs => ?_⟩
  · obtain ⟨creation, hold, rfl⟩ := List.mem_map.mp hmem
    exact ⟨creation, hold, rfl, rfl, rfl, rfl, fun h => by simp [h], rfl⟩
  · constructor
    · exact hs.keyed
    · have hdigests : (s.created.map fun creation =>
          { creation with deleted := creation.deleted || decide (creation.userID = userID) }).map
          (fun creation => creation.digest) = s.created.map fun creation => creation.digest := by
        simp [Function.comp_def]
      exact hdigests ▸ hs.nodup
    · intro creation' hmem
      obtain ⟨creation, hold, rfl⟩ := List.mem_map.mp hmem
      exact hs.row creation hold
    · intro creation' hmem hdeleted
      obtain ⟨creation, hold, rfl⟩ := List.mem_map.mp hmem
      simp only [Bool.or_eq_false_iff, decide_eq_false_iff_not] at hdeleted
      obtain ⟨account, hlookup, hrecorded⟩ := hs.recorded creation hold hdeleted.1
      exact ⟨account, (lookup_dropAccount_of_ne hdeleted.2).trans hlookup, hrecorded⟩
    · intro creation' hmem
      obtain ⟨creation, hold, rfl⟩ := List.mem_map.mp hmem
      exact hs.marked creation hold
    · intro creation' hmem
      obtain ⟨creation, hold, rfl⟩ := List.mem_map.mp hmem
      exact hs.epoch creation hold

theorem Beside.apart (h : Beside (s, w) (t, w')) : Apart s t := by
  cases h with
  | arrive consumption hfree account hopen =>
    refine apart_putAccount fun old hold => ?_
    rcases hopen with hsame | ⟨hnone, -⟩
    · rw [hold] at hsame
      cases hsame
      rfl
    · rw [hold] at hnone
      cases hnone
  | giveUp _ => exact .refl s
  | write userID hfree account hreceipts =>
    refine apart_putAccount fun old hold => ?_
    rw [hreceipts, hold]
    rfl
  | delete userID hfree => exact apart_dropAccount

end

/-! ## What a consumption finds out -/

/-- Of the sessions of a digest all is known that a consumption has checked. -/
def Known (digest : Hash) (P : Creation → Prop) (s : System) : Prop :=
  ∀ creation ∈ s.created, creation.digest = digest → P creation

/-- What the order of the consumptions gives a call. -/
def Lawful (s : System) : RegistryCall → Prop
  | .consume consumption => Unexpired s consumption → Known consumption.digest
      (fun creation => ¬ (creation.deleted = true ∧ creation.outlived = true)) s
  | _ => True

/-- A step of a call. -/
structure Moves (call : RegistryCall) (s t : System) : Prop where
  accounted : Lawful s call → Accounted s → Accounted t
  created : ∀ creation ∈ t.created, (∃ old ∈ s.created, old.digest = creation.digest) ∨
    ∃ row ∈ s.registry, row.digest = creation.digest
  registry : ∀ row ∈ t.registry, row ∈ s.registry ∨
    ∃ domain issuedAt expiresAt, call = .create row.digest domain issuedAt expiresAt

section
variable {s t : System} {call : RegistryCall} {consumption : NativeChallengeConsumption}
  {digest : Hash} {issuance : NativeChallengeIssuance}

theorem moves_refl (s : System) : Moves call s s :=
  ⟨fun _ => id, fun creation h => .inl ⟨creation, h, rfl⟩, fun _ => .inl⟩

/-- Facts that age does not change last while others act. -/
theorem Known.apart {P : Creation → Prop} (h : Known digest P s) (hst : Apart s t)
    (hP : ∀ creation creation', Aged creation creation' → P creation → P creation') :
    Known digest P t := by
  intro creation' hmem hdigest
  obtain ⟨creation, hmem, haged⟩ := hst.created creation' hmem
  exact hP creation creation' haged (h creation hmem (haged.digest ▸ hdigest))

/-- The issuance of the challenge the consumption names. -/
def Admitted (s : System) (consumption : NativeChallengeConsumption)
    (issuance : NativeChallengeIssuance) : Prop :=
  Unexpired s consumption ∧ ∀ row ∈ s.registry, row.digest = consumption.digest →
    row.processEpoch = s.epoch ∧ row.expiresAtMs = issuance.expiresAtMs

theorem load_admitted (hs : Accounted s)
    (h : loadNativeChallengeIssuance s consumption = .ok issuance) :
    Admitted s consumption issuance := by
  unfold loadNativeChallengeIssuance at h
  dsimp only at h
  split at h
  · rename_i row hrow
    cases h
    have hmem := List.mem_of_find?_eq_some hrow
    have hrow := List.find?_some hrow
    simp only [Bool.and_eq_true, decide_eq_true_eq] at hrow
    obtain ⟨⟨⟨⟨hdigest, hdomain⟩, hepoch⟩, hissued⟩, hexpires⟩ := hrow
    refine ⟨⟨row, hmem, hdigest, hdomain, hepoch, hissued, hexpires⟩, fun row' hmem' hdigest' => ?_⟩
    rw [hs.keyed row' hmem' row hmem (hdigest'.trans hdigest.symm)]
    exact ⟨hepoch, rfl⟩
  · cases h

theorem Unexpired.apart (h : Unexpired s consumption) (hst : Apart s t) :
    Unexpired t consumption := by
  unfold Unexpired at h ⊢
  rw [hst.registry, hst.epoch]
  exact h

theorem Admitted.apart (h : Admitted s consumption issuance) (hst : Apart s t) :
    Admitted t consumption issuance := by
  refine ⟨Unexpired.apart h.1 hst, ?_⟩
  rw [hst.registry, hst.epoch]
  exact h.2

theorem Admitted.row (h : Admitted s consumption issuance) : ∃ row ∈ s.registry,
    row.digest = consumption.digest ∧ row.processEpoch = s.epoch ∧
      row.expiresAtMs = issuance.expiresAtMs := by
  obtain ⟨⟨row, hmem, hdigest, -⟩, hrows⟩ := h
  exact ⟨row, hmem, hdigest, hrows row hmem hdigest⟩

theorem Admitted.unexpired (h : Admitted s consumption issuance) :
    consumption.now.unixMilli < issuance.expiresAtMs := by
  obtain ⟨⟨row, hmem, hdigest, -, -, -, hnow⟩, hrows⟩ := h
  exact (hrows row hmem hdigest).2 ▸ hnow

/-- Another session of the digest would be of the same challenge. -/
theorem Admitted.known (h : Admitted s consumption issuance) (hs : Accounted s) :
    Known consumption.digest (fun creation => creation.processEpoch = s.epoch ∧
      creation.expiresAtMs = issuance.expiresAtMs) s := by
  intro creation hmem hdigest
  obtain ⟨row, hrow, hrowDigest, hepoch, hexpires⟩ := h.row
  obtain ⟨hepoch', hexpires'⟩ := hs.row creation hmem row hrow (hrowDigest.trans hdigest.symm)
  exact ⟨hepoch'.symm.trans hepoch, hexpires'.symm.trans hexpires⟩

/-- A look at the marks drops the ones that have expired. -/
theorem accounted_wasSpent (digest : Hash) (now : Time) (hs : Accounted s) :
    Accounted (nativeChallengeWasSpent s digest now).2 := by
  constructor
  · exact hs.keyed
  · have hdigests : ((nativeChallengeWasSpent s digest now).2.created.map
        fun creation => creation.digest) = s.created.map fun creation => creation.digest := by
      simp [nativeChallengeWasSpent, Function.comp_def]
    exact hdigests ▸ hs.nodup
  · intro creation' hmem
    obtain ⟨creation, hold, rfl⟩ := List.mem_map.mp hmem
    exact hs.row creation hold
  · intro creation' hmem
    obtain ⟨creation, hold, rfl⟩ := List.mem_map.mp hmem
    exact hs.recorded creation hold
  · intro creation' hmem hepoch houtlived
    obtain ⟨creation, hold, rfl⟩ := List.mem_map.mp hmem
    simp only [Bool.or_eq_false_iff, decide_eq_false_iff_not, not_le] at houtlived
    have hmark := hs.marked creation hold hepoch houtlived.1
    simp [nativeChallengeWasSpent, pruneSpent, hmark, houtlived.2]
  · intro creation' hmem
    obtain ⟨creation, hold, rfl⟩ := List.mem_map.mp hmem
    exact hs.epoch creation hold

theorem moves_wasSpent (digest : Hash) (now : Time) :
    Moves call s (nativeChallengeWasSpent s digest now).2 := by
  refine ⟨fun _ => accounted_wasSpent digest now, fun creation hmem => ?_, fun _ => .inl⟩
  obtain ⟨old, hold, rfl⟩ := List.mem_map.mp hmem
  exact .inl ⟨old, hold, rfl⟩

/-- A digest that is not marked has no session, or one whose mark is lost. -/
theorem known_outlived (h : Admitted s consumption issuance) (hs : Accounted s)
    (hspent : (nativeChallengeWasSpent s consumption.digest consumption.now).1 = false) :
    Known consumption.digest (fun creation => creation.outlived = true)
      (nativeChallengeWasSpent s consumption.digest consumption.now).2 := by
  intro creation' hmem hdigest
  obtain ⟨creation, hold, rfl⟩ := List.mem_map.mp hmem
  obtain ⟨hepoch, hexpires⟩ := h.known hs creation hold hdigest
  by_contra hnot
  simp only [Bool.or_eq_true, decide_eq_true_eq, not_or, Bool.not_eq_true, not_le] at hnot
  have hmark := hs.marked creation hold hepoch hnot.1
  change creation.digest = consumption.digest at hdigest
  rw [hdigest] at hmark
  simp [nativeChallengeWasSpent, pruneSpent, hmark, hnot.2] at hspent

/-- The challenge is the registry's, and no session of it is marked. -/
def Missed (s : System) (consumption : NativeChallengeConsumption)
    (issuance : NativeChallengeIssuance) : Prop :=
  Admitted s consumption issuance ∧
    Known consumption.digest (fun creation => creation.outlived = true) s

theorem Missed.apart (h : Missed s consumption issuance) (hst : Apart s t) :
    Missed t consumption issuance :=
  ⟨Admitted.apart h.1 hst, h.2.apart hst fun _ _ haged hP => haged.outlived.trans hP⟩

/-- A session whose account has no record of it has lost the account. -/
theorem known_deleted (hs : Accounted s) {userID : String} {account : Account}
    (hlookup : s.accounts.lookup userID = some account)
    (hnot : nativeChallengeConsumedInDatabase account digest = false) :
    Known digest (fun creation => creation.userID = userID → creation.deleted = true) s := by
  intro creation hmem hdigest huser
  by_contra hdeleted
  obtain ⟨account', hlookup', hrecorded⟩ :=
    hs.recorded creation hmem (Bool.eq_false_iff.mpr hdeleted)
  rw [huser, hlookup] at hlookup'
  cases hlookup'
  rw [hdigest, hnot] at hrecorded
  cases hrecorded

end

/-! ## The accounts are asked one after the other -/

section
variable {s t : System} {digest : Hash}

/-- The accounts of the users asked no longer tell. -/
def Asked (digest : Hash) (asked : String → Prop) (s : System) : Prop :=
  Accounted s ∧
    Known digest (fun creation => asked creation.userID → creation.deleted = true) s

theorem Asked.apart {asked : String → Prop} (h : Asked digest asked s) (hst : Apart s t) :
    Asked digest asked t := by
  refine ⟨hst.accounted h.1, h.2.apart hst fun creation creation' haged hP huser => ?_⟩
  exact haged.deleted (hP (haged.userID ▸ huser))

theorem Asked.and {asked asked' : String → Prop} (h : Asked digest asked s)
    (h' : Asked digest asked' s) : Asked digest (fun userID => asked userID ∨ asked' userID) s := by
  refine ⟨h.1, fun creation hmem hdigest huser => ?_⟩
  rcases huser with huser | huser
  · exact h.2 creation hmem hdigest huser
  · exact h'.2 creation hmem hdigest huser

theorem Asked.mono {asked asked' : String → Prop} (h : Asked digest asked s)
    (hsub : ∀ userID, asked' userID → asked userID) : Asked digest asked' s :=
  ⟨h.1, fun creation hmem hdigest huser => h.2 creation hmem hdigest (hsub _ huser)⟩

/-- A user without an account has lost every session. -/
theorem asked_unlisted (hs : Accounted s) :
    Asked digest (fun userID => userID ∉ s.accounts.map Prod.fst) s := by
  refine ⟨hs, fun creation hmem _ huser => ?_⟩
  by_contra hdeleted
  obtain ⟨account, hlookup, -⟩ := hs.recorded creation hmem (Bool.eq_false_iff.mpr hdeleted)
  exact huser (mem_of_lookup hlookup)

/-- A program that only reads keeps what lasts while others act. -/
theorem meets_reading {α : Type} {P : System → Prop} {Q : Except StoreError α → System → Prop}
    {x : RegistryOp α} (h : Meets Apart Eq Q x s) (hs : P s)
    (hP : ∀ a b, Apart a b → P a → P b) : Meets Apart Eq (fun r t => Q r t ∧ P t) x s := by
  have hkeep := h.keep hs hP fun a b heq ha => by subst heq; exact ha
  exact hkeep.mono (fun _ _ => id) (fun _ _ hab => hab.1) fun _ _ => id

theorem meets_consumedByUser (hs : Accounted s) (userID : String) :
    Meets Apart Eq (fun r t => r = .ok false → Asked digest (fun other => other = userID) t)
      (nativeChallengeConsumedByUser userID digest) s := by
  unfold nativeChallengeConsumedByUser
  refine (meets_tryRead _ _).mpr ⟨rfl, fun t hst hr => ?_⟩
  cases hlookup : s.accounts.lookup userID with
  | none =>
    rw [hlookup] at hr
    cases hr
  | some account =>
    rw [hlookup] at hr
    have hasked : Asked digest (fun other => other = userID) s :=
      ⟨hs, known_deleted hs hlookup (Except.ok.inj hr)⟩
    exact hasked.apart hst

theorem meets_consumedByUsers (userIDs : List String) {asked : String → Prop}
    (h : Asked digest asked s) :
    Meets Apart Eq (fun r t => r = .ok false →
        Asked digest (fun other => asked other ∨ other ∈ userIDs) t)
      (nativeChallengeConsumedByUsers digest userIDs) s := by
  induction userIDs generalizing s asked with
  | nil =>
    refine (meets_pure _ _).mpr fun _ => h.mono fun other hother => ?_
    simpa using hother
  | cons userID userIDs ih =>
    refine Meets.bind (meets_reading (meets_consumedByUser h.1 userID) h
      fun _ _ hst h => h.apart hst) ?_ fun _ _ _ hr => by cases hr
    intro consumed t ht
    cases consumed with
    | true => exact (meets_pure _ _).mpr fun hr => by cases hr
    | false =>
      refine (ih (ht.2.and (ht.1 rfl))).imp fun r u hu hr => (hu hr).mono fun other hother => ?_
      simp only [List.mem_cons] at hother
      tauto

/-- A digest nobody has recorded is one whose sessions have all lost their
accounts. -/
theorem meets_consumed (hs : Accounted s) (targetUserID : String) (digest : Hash) :
    Meets Apart Eq (fun r t => r = .ok false → Asked digest (fun _ => True) t)
      (nativeChallengeConsumed targetUserID digest) s := by
  unfold nativeChallengeConsumed
  refine Meets.bind (meets_reading (meets_consumedByUser hs targetUserID) hs
    fun _ _ hst h => hst.accounted h) ?_ fun _ _ _ hr => by cases hr
  intro consumed t ht
  cases consumed with
  | true => exact (meets_pure _ _).mpr fun hr => by cases hr
  | false =>
    have htarget := ht.1 rfl
    refine (meets_bind _ _ _).mpr ((meets_read _ _).mpr ⟨rfl, fun u htu => ?_⟩)
    have hasked := (htarget.and (asked_unlisted ht.2)).apart htu
    refine (meets_consumedByUsers _ hasked).imp fun r v hv hr => (hv hr).mono fun other _ => ?_
    by_cases hother : other = targetUserID
    · exact .inl (.inl hother)
    · by_cases hlisted : other ∈ t.accounts.map Prod.fst
      · exact .inr (List.mem_filter.mpr ⟨hlisted, by simpa using hother⟩)
      · exact .inl (.inr hlisted)

end

/-! ## The steps of the calls -/

section
variable {s t : System} {digest : Hash} {consumption : NativeChallengeConsumption}
  {issuance : NativeChallengeIssuance} {account account' : Account}

theorem write_receipts (h : writeNativeChallengeAccount account consumption issuance = .ok account') :
    account'.receipts = account.receipts ++ [⟨consumption.digest, consumption.domain,
      issuance.issuedAtMs, issuance.expiresAtMs, consumption.now.unixMilli⟩] := by
  unfold writeNativeChallengeAccount at h
  split at h
  · cases h
  · cases htables : insertSession (upsertProfile account.tables consumption.profile)
        consumption.session consumption.tokens with
    | error e =>
      rw [htables] at h
      cases h
    | ok tables =>
      rw [htables] at h
      cases h
      rfl

theorem write_consumed (h : writeNativeChallengeAccount account consumption issuance = .ok account')
    (hdigest : nativeChallengeConsumedInDatabase account digest = true ∨
      digest = consumption.digest) :
    nativeChallengeConsumedInDatabase account' digest = true := by
  unfold nativeChallengeConsumedInDatabase at hdigest ⊢
  rw [write_receipts h, List.any_append, Bool.or_eq_true]
  rcases hdigest with hold | hnew
  · exact .inl hold
  · refine .inr ?_
    simp [hnew]

/-- The session is committed where no other one of its digest can be. -/
theorem moves_commit (hmissed : Missed s consumption issuance)
    (hasked : Asked consumption.digest (fun _ => True) s) :
    Moves (.consume consumption) s (commitNativeChallengeAccount s consumption issuance).2 := by
  unfold commitNativeChallengeAccount
  split
  · exact moves_refl s
  · rename_i account hlookup
    split
    · exact moves_refl s
    · rename_i account' hwrite
      obtain ⟨hadmitted, houtlived⟩ := hmissed
      obtain ⟨row, hrow, hrowDigest, -, -⟩ := hadmitted.row
      refine ⟨fun hlawful hs => ?_, fun creation hmem => ?_, fun _ => .inl⟩
      · have hnone : ∀ creation ∈ s.created, creation.digest ≠ consumption.digest :=
          fun creation hmem hdigest => hlawful hadmitted.1 creation hmem hdigest
            ⟨hasked.2 creation hmem hdigest trivial, houtlived creation hmem hdigest⟩
        constructor
        · exact hs.keyed
        · refine List.nodup_cons.mpr ⟨fun hmem => ?_, hs.nodup⟩
          obtain ⟨creation, hmem, hdigest⟩ := List.mem_map.mp hmem
          exact hnone creation hmem hdigest
        · intro creation hmem other hother hdigest
          rcases List.mem_cons.mp hmem with rfl | hold
          · exact hadmitted.2 other hother hdigest
          · exact hs.row creation hold other hother hdigest
        · intro creation hmem hdeleted
          rcases List.mem_cons.mp hmem with rfl | hold
          · exact ⟨account', lookup_putAccount_self, write_consumed hwrite (.inr rfl)⟩
          · obtain ⟨old, hlookupOld, hrecorded⟩ := hs.recorded creation hold hdeleted
            by_cases heq : creation.userID = consumption.profile.id
            · rw [heq, hlookup] at hlookupOld
              cases hlookupOld
              refine ⟨account', ?_, write_consumed hwrite (.inl hrecorded)⟩
              rw [heq]
              exact lookup_putAccount_self
            · exact ⟨old, (lookup_putAccount_of_ne heq).trans hlookupOld, hrecorded⟩
        · intro creation hmem hepoch hnot
          rcases List.mem_cons.mp hmem with rfl | hold
          · simp
          · simpa [hnone creation hold] using hs.marked creation hold hepoch hnot
        · intro creation hmem
          rcases List.mem_cons.mp hmem with rfl | hold
          · exact le_rfl
          · exact hs.epoch creation hold
      · rcases List.mem_cons.mp hmem with rfl | hold
        · exact .inr ⟨row, hrow, hrowDigest⟩
        · exact .inl ⟨creation, hold, rfl⟩

/-- No challenge and no session has the digest. -/
def Fresh (digest : Hash) (s : System) : Prop :=
  (∀ row ∈ s.registry, row.digest ≠ digest) ∧ ∀ creation ∈ s.created, creation.digest ≠ digest

theorem Fresh.apart (h : Fresh digest s) (hst : Apart s t) : Fresh digest t := by
  refine ⟨hst.registry ▸ h.1, fun creation' hmem => ?_⟩
  obtain ⟨creation, hold, haged⟩ := hst.created creation' hmem
  rw [haged.digest]
  exact h.2 creation hold

theorem moves_create (hfresh : Fresh digest s) (domain : String) (issuedAt expiresAt : Time) :
    Moves (.create digest domain issuedAt expiresAt) s
      (createNativeChallenge s digest domain issuedAt expiresAt).2 := by
  unfold createNativeChallenge
  split
  · exact moves_refl s
  · dsimp only
    split
    · exact moves_refl s
    · have hkept : ∀ row, row ∈ s.registry.filter (fun row =>
          issuedAt.unixMilli < row.expiresAtMs) → row ∈ s.registry :=
        fun row hrow => (List.mem_filter.mp hrow).1
      refine ⟨fun _ hs => ?_, fun creation hmem => .inl ⟨creation, hmem, rfl⟩, fun row hrow => ?_⟩
      · constructor
        · intro row hrow row' hrow' hdigest
          rcases List.mem_append.mp hrow with hold | hnew <;>
            rcases List.mem_append.mp hrow' with hold' | hnew'
          · exact hs.keyed row (hkept row hold) row' (hkept row' hold') hdigest
          · cases List.mem_singleton.mp hnew'
            exact absurd hdigest (hfresh.1 row (hkept row hold))
          · cases List.mem_singleton.mp hnew
            exact absurd hdigest.symm (hfresh.1 row' (hkept row' hold'))
          · exact (List.mem_singleton.mp hnew).trans (List.mem_singleton.mp hnew').symm
        · exact hs.nodup
        · intro creation hmem row hrow hdigest
          rcases List.mem_append.mp hrow with hold | hnew
          · exact hs.row creation hmem row (hkept row hold) hdigest
          · cases List.mem_singleton.mp hnew
            exact absurd hdigest.symm (hfresh.2 creation hmem)
        · exact hs.recorded
        · exact hs.marked
        · exact hs.epoch
      · rcases List.mem_append.mp hrow with hold | hnew
        · exact .inl (hkept row hold)
        · cases List.mem_singleton.mp hnew
          exact .inr ⟨domain, issuedAt, expiresAt, rfl⟩

theorem moves_restart :
    Moves .restart s { s with epoch := s.epoch + 1, spent := fun _ => none } := by
  refine ⟨fun _ hs => ?_, fun creation hmem => .inl ⟨creation, hmem, rfl⟩, fun _ => .inl⟩
  refine ⟨hs.keyed, hs.nodup, hs.row, hs.recorded, fun creation hmem hepoch => ?_,
    fun creation hmem => (hs.epoch creation hmem).trans (Nat.le_succ _)⟩
  have hle := hs.epoch creation hmem
  rw [hepoch] at hle
  exact absurd hle (Nat.not_succ_le_self _)

theorem meets_consume (hs : Accounted s) :
    Meets Apart (Moves (.consume consumption)) (fun _ _ => True)
      (consumeNativeChallengeAndCreateSession consumption) s := by
  unfold consumeNativeChallengeAndCreateSession
  refine (meets_bind _ _ _).mpr ((meets_tryRead _ _).mpr ⟨moves_refl s, fun s₁ h₁ => ?_⟩)
  cases hload : loadNativeChallengeIssuance s consumption with
  | error e => trivial
  | ok issuance =>
    have hadmitted := (load_admitted hs hload).apart h₁
    have hs₁ := h₁.accounted hs
    refine (meets_bind _ _ _).mpr ((meets_step _ _).mpr ⟨moves_wasSpent _ _, fun s₂ h₂ => ?_⟩)
    have hs₂ := h₂.accounted (accounted_wasSpent consumption.digest consumption.now hs₁)
    refine (meets_bind _ _ _).mpr ((meets_require _ _ _).mpr ?_)
    cases hspent : (nativeChallengeWasSpent s₁ consumption.digest consumption.now).1 with
    | true => trivial
    | false =>
      have hunmarked : Missed (nativeChallengeWasSpent s₁ consumption.digest consumption.now).2
          consumption issuance := ⟨hadmitted, known_outlived hadmitted hs₁ hspent⟩
      have hmissed := Missed.apart hunmarked h₂
      have hreading := meets_reading
        (meets_consumed hs₂ consumption.profile.id consumption.digest) hmissed
        fun a b hab ha => Missed.apart ha hab
      refine Meets.bind (hreading.mono (fun _ _ => id) (fun a b hab => ?_) fun _ _ => id)
        (fun consumed s₃ h₃ => ?_) fun _ _ _ => trivial
      · subst hab
        exact moves_refl a
      · refine (meets_bind _ _ _).mpr ((meets_require _ _ _).mpr ?_)
        cases consumed with
        | true => trivial
        | false =>
          exact (meets_tryStep _ _).mpr ⟨moves_commit h₃.2 (h₃.1 rfl), fun _ _ => trivial⟩

end

/-! ## Runs -/

/-- Only digests that were drawn are in use, and everything that was committed
is accounted for. -/
structure Ordered (call : Option RegistryCall) (s : System) (w : Waiting) : Prop where
  accounted : Accounted s
  rows : ∀ row ∈ s.registry, row.digest ∈ w.drawn
  created : ∀ creation ∈ s.created, creation.digest ∈ w.drawn
  drawing : ∀ digest domain issuedAt expiresAt,
    call = some (.create digest domain issuedAt expiresAt) → digest ∈ w.drawn

section
variable {s t : System} {w w' : Waiting} {call : Option RegistryCall} {current : RegistryCall}

theorem Beside.drawn (h : Beside (s, w) (t, w')) : w'.drawn = w.drawn := by
  cases h <;> rfl

theorem Ordered.beside (h : Ordered call s w) (hs : Beside (s, w) (t, w')) : Ordered call t w' := by
  have hst : Apart s t := Beside.apart hs
  have hdrawn : w'.drawn = w.drawn := Beside.drawn hs
  refine ⟨hst.accounted h.accounted, ?_, fun creation' hmem => ?_, ?_⟩
  · rw [hst.registry, hdrawn]
    exact h.rows
  · obtain ⟨creation, hold, haged⟩ := hst.created creation' hmem
    rw [hdrawn, haged.digest]
    exact h.created creation hold
  · rw [hdrawn]
    exact h.drawing

theorem Ordered.moves (h : Ordered (some current) s w) (hst : Moves current s t)
    (hlawful : Lawful s current) : Ordered (some current) t w := by
  refine ⟨hst.accounted hlawful h.accounted, fun row hrow => ?_, fun creation hmem => ?_,
    h.drawing⟩
  · rcases hst.registry row hrow with hold | ⟨domain, issuedAt, expiresAt, hcall⟩
    · exact h.rows row hold
    · exact h.drawing row.digest domain issuedAt expiresAt (congrArg some hcall)
  · rcases hst.created creation hmem with ⟨old, hold, hdigest⟩ | ⟨row, hrow, hdigest⟩
    · exact hdigest ▸ h.created old hold
    · exact hdigest ▸ h.rows row hrow

theorem Ordered.fresh {digest : Hash} (h : Ordered call s w) (hnew : digest ∉ w.drawn) :
    Fresh digest s :=
  ⟨fun row hrow heq => hnew (heq ▸ h.rows row hrow),
    fun creation hmem heq => hnew (heq ▸ h.created creation hmem)⟩

theorem Ordered.mono {call' : Option RegistryCall} (h : Ordered call s w)
    (hsub : ∀ digest ∈ w.drawn, digest ∈ w'.drawn)
    (hdrawing : ∀ digest domain issuedAt expiresAt,
      call' = some (.create digest domain issuedAt expiresAt) → digest ∈ w'.drawn) :
    Ordered call' s w' :=
  ⟨h.accounted, fun row hrow => hsub _ (h.rows row hrow),
    fun creation hmem => hsub _ (h.created creation hmem), hdrawing⟩

theorem ordered_start (h : Ordered none s w) (hstart : current.start w w') :
    Ordered (some current) s w' ∧
      Safe Apart (Moves current) (fun _ _ => True) (ExceptT.run current.body) s := by
  cases current with
  | create digest domain issuedAt expiresAt =>
    obtain ⟨hnew, rfl⟩ := hstart
    refine ⟨h.mono (fun other => List.mem_cons_of_mem digest) fun other _ _ _ hcall => ?_, ?_⟩
    · cases hcall
      exact List.mem_cons_self
    · intro s' hs
      exact (meets_tryStep _ _).mpr
        ⟨moves_create ((h.fresh hnew).apart hs) domain issuedAt expiresAt, fun _ _ => trivial⟩
  | consume consumption =>
    obtain ⟨before, after, -, rfl⟩ := hstart
    refine ⟨h.mono (fun _ => id) fun _ _ _ _ hcall => (by cases hcall), fun s' hs => ?_⟩
    exact meets_consume (hs.accounted h.accounted)
  | restart =>
    cases hstart
    refine ⟨h.mono (fun _ => id) fun _ _ _ _ hcall => (by cases hcall), fun s' hs => ?_⟩
    exact (meets_modify _ _).mpr ⟨moves_restart, fun _ _ => trivial⟩

theorem ordered_finish (h : Ordered (some current) s w) (hfinish : current.finish w w') :
    Ordered none s w' := by
  have hdrawn : w'.drawn = w.drawn := by
    cases current <;> cases hfinish <;> rfl
  exact h.mono (fun _ hmem => hdrawn ▸ hmem) fun _ _ _ _ hcall => by cases hcall

/-- The calls of the registry rely on `Apart` and guarantee `Moves`. -/
theorem challenge_rules :
    CallRules challengeServer InOrder Apart Moves (fun _ _ _ => True) Ordered where
  refl := Apart.refl
  trans _ _ _ h h' := h.trans h'
  others h hs := ⟨h.beside hs, Beside.apart hs⟩
  start h hstart := ordered_start h hstart
  act {call s w u n} h hst hok := by
    refine h.moves hst ?_
    cases call with
    | create _ _ _ _ => trivial
    | restart => trivial
    | consume consumption => exact hok consumption u n rfl
  finish h _ hfinish := ordered_finish h hfinish

theorem ordered_initial : Ordered none System.initial ⟨[], [], []⟩ := by
  constructor
  · constructor <;> simp [System.initial]
  all_goals simp [System.initial]

end

/-- In every run in which the consumptions stay in order, no two sessions were
ever committed for one challenge. -/
theorem one_session_per_challenge {c : ChallengeConfig}
    (h : Runs challengeServer InOrder ChallengeConfig.initial c) :
    (c.shared.created.map fun creation => creation.digest).Nodup :=
  (challenge_rules.runs (.idle ordered_initial) h).inv.accounted.nodup

/-! ## A challenge, and a challenge spent twice -/

section

def profileOf (userID : String) : Profile := ⟨userID, "issuer", userID, "", "", ""⟩

def nativeSession : Session :=
  ⟨"session", .native, "device", "ios", none, ⟨0, 0⟩, ⟨3600000000000, 0⟩⟩

/-- The consumption of a challenge at a second of the first hour. -/
def consumptionAt (digest : Hash) (userID : String) (second : Int) : NativeChallengeConsumption :=
  ⟨digest, "native", ⟨second * 1000000000, 0⟩, profileOf userID, nativeSession, []⟩

/-- A challenge lasts for five minutes. -/
def issue (digest : Hash) (second : Int) : RegistryCall :=
  .create digest "native" ⟨second * 1000000000, 0⟩ ⟨(second + 300) * 1000000000, 0⟩

def newAccount : Account := ⟨.initial, []⟩

def arrive (s : System) (consumption : NativeChallengeConsumption) : System :=
  { s with accounts := putAccount s.accounts consumption.profile.id newAccount }

def delete (s : System) (userID : String) : System where
  registry := s.registry
  epoch := s.epoch
  spent := s.spent
  accounts := dropAccount s.accounts userID
  created := s.created.map fun creation =>
    { creation with deleted := creation.deleted || creation.userID = userID }

/-- The state a call leaves when nothing happens beside it. -/
def afterCall (s : System) (call : RegistryCall) : System := (call.body.exec s).2

def first : NativeChallengeConsumption := consumptionAt 1 "first" 10
def second : NativeChallengeConsumption := consumptionAt 1 "second" 299
def third : NativeChallengeConsumption := consumptionAt 2 "third" 301

/-- The first user's challenge is issued, and the user comes for it. -/
def issued : System := afterCall .initial (issue 1 0)

/-- `ok` says nothing of a step that is not a consumption's. -/
def Lenient (ok : ChallengeConfig → ChallengeConfig → Prop) : Prop :=
  ∀ c c', (∀ consumption u n, c.current ≠ some (.consume consumption, .act u n)) → ok c c'

theorem lenient_inOrder : Lenient InOrder :=
  fun _ _ hnot consumption u n hcur => absurd hcur (hnot consumption u n)

variable {ok : ChallengeConfig → ChallengeConfig → Prop}

theorem runs_issue (hok : Lenient ok) {s : System} {w : Waiting} (digest : Hash)
    (hnew : digest ∉ w.drawn) (time : Int) :
    Runs challengeServer ok ⟨s, w, none⟩
      ⟨afterCall s (issue digest time), { w with drawn := digest :: w.drawn }, none⟩ := by
  refine Runs.call (k := issue digest time) rfl ⟨hnew, rfl⟩ rfl ?_ (fun _ _ _ _ => ?_) ?_
  all_goals exact hok _ _ fun _ _ _ h => by cases h

theorem runs_arrive (hok : Lenient ok) {s : System} {w : Waiting}
    (consumption : NativeChallengeConsumption) (hfree : consumption.profile.id ∉ w.locked)
    (hnone : s.accounts.lookup consumption.profile.id = none) :
    Runs challengeServer ok ⟨s, w, none⟩ ⟨arrive s consumption, { w with
      consumptions := consumption :: w.consumptions
      locked := consumption.profile.id :: w.locked }, none⟩ :=
  Runs.single (.other (Beside.arrive consumption hfree newAccount (.inr ⟨hnone, rfl⟩)))
    (hok _ _ fun _ _ _ h => by cases h)

/-- The first user's challenge is issued, and the user comes for it. -/
theorem runs_waiting (hok : Lenient ok) : Runs challengeServer ok ChallengeConfig.initial
    ⟨arrive issued first, ⟨[first], ["first"], [1]⟩, none⟩ :=
  (runs_issue hok 1 List.not_mem_nil 0).trans (runs_arrive hok first List.not_mem_nil rfl)

/-- The state after the first consumption. -/
def signedIn : System := afterCall (arrive issued first) (.consume first)

end

/-- The first user signs in. -/
theorem challenge_spent : (signedIn.created.map fun creation => creation.digest) = [1] ∧
    (signedIn.created.map fun creation => creation.digest).Nodup := by
  have hstates : ∀ t ∈ ((ExceptT.run (RegistryCall.body (.consume first))).states
      (arrive issued first)).dropLast, t.created = [] := by decide +kernel
  have hstart : Runs challengeServer InOrder
      ⟨arrive issued first, ⟨[first], ["first"], [1]⟩, none⟩
      ⟨arrive issued first, ⟨[], ["first"], [1]⟩,
        some (.consume first, challengeServer.body (.consume first))⟩ :=
    Runs.single (.start ⟨[], [], rfl, rfl⟩) (lenient_inOrder _ _ fun _ _ _ h => by cases h)
  have hrest : Runs challengeServer InOrder
      ⟨arrive issued first, ⟨[], ["first"], [1]⟩,
        some (.consume first, challengeServer.body (.consume first))⟩
      ⟨signedIn, ⟨[], ["first"], [1]⟩, some (.consume first, .ret (.ok ()))⟩ := by
    refine Runs.rest_where (fun s s' p p' hnone consumption u n _ _ => ?_) _ _ hstates
    intro creation hmem
    rw [show s.created = [] from hnone] at hmem
    cases hmem
  exact ⟨by decide +kernel,
    one_session_per_challenge (((runs_waiting lenient_inOrder).trans hstart).trans hrest)⟩

section

def anyOrder (_ _ : ChallengeConfig) : Prop := True

theorem runs_consume {s : System} {w : Waiting} {consumption : NativeChallengeConsumption}
    (before after : List NativeChallengeConsumption)
    (h : w.consumptions = before ++ consumption :: after) :
    Runs challengeServer anyOrder ⟨s, w, none⟩
      ⟨afterCall s (.consume consumption), { w with
        consumptions := before ++ after
        locked := w.locked.erase consumption.profile.id }, none⟩ := by
  have hstart : challengeServer.start (.consume consumption) w
      { w with consumptions := before ++ after } := ⟨before, after, h, rfl⟩
  exact Runs.call rfl hstart rfl trivial (fun _ _ _ _ => trivial) trivial

/-- The second user, whose request had waited since before the expiry, comes
last. -/
def signedInTwice : System :=
  afterCall (afterCall (arrive (delete (arrive (afterCall signedIn (issue 2 298)) second) "first")
    third) (.consume third)) (.consume second)

theorem runs_signedInTwice : Runs challengeServer anyOrder ChallengeConfig.initial
    ⟨signedInTwice, ⟨[], [], [2, 1]⟩, none⟩ := by
  have hlenient : Lenient anyOrder := fun _ _ _ => trivial
  refine (runs_waiting hlenient).trans ?_
  refine (runs_consume [] [] rfl).trans ?_
  refine (runs_issue hlenient 2 (by decide) 298).trans ?_
  refine (runs_arrive hlenient second (by decide) (by decide +kernel)).trans ?_
  refine (Runs.single (.other (Beside.delete "first" (by decide))) trivial).trans ?_
  refine (runs_arrive hlenient third (by decide) (by decide +kernel)).trans ?_
  refine (runs_consume [] [second] rfl).trans ?_
  exact runs_consume [] [] rfl

end

/-- A second session of the first user's challenge is committed, after the
account is gone and the mark has expired. -/
theorem challenge_spent_twice : ¬ ∀ c, Runs challengeServer anyOrder ChallengeConfig.initial c →
    (c.shared.created.map fun creation => creation.digest).Nodup := by
  intro h
  have hnot : ¬ (signedInTwice.created.map fun creation => creation.digest).Nodup := by
    decide +kernel
  exact hnot (h _ runs_signedInTwice)

end Pomodorough.Store.OneTimeChallenges
