import Mathlib.Data.List.Chain
import Pomodorough.Library.Fallible

/-! # Account contexts

A context captures the connection, the owner and the sign-out marker of its tab and
compares them again whenever it is asked. Changes of the tab come from anywhere, and a
context may publish changes of its own. -/
namespace Pomodorough.Web.AccountContexts
open Pomodorough.Library.Fallible

/-! ## The tab -/

/-- The parts of a user that identify the account. An id or an incarnation that is not a
string is `none`, and so is an incarnation that the user has not got. -/
structure User where
  id : Option String
  accountIncarnation : Option (Option String)
  deriving DecidableEq, Repr

inductive Failure where
  | accountOwnership
  | typeError (message : String)
  deriving DecidableEq, Repr

def validAccountIncarnation (value : Option String) : Bool :=
  value.any fun text => text.toList.length = 64 ∧
    text.toList.all fun c => 'a' ≤ c ∧ c ≤ 'f' ∨ '0' ≤ c ∧ c ≤ '9'

def accountOwnerId (user : Option User) : Except Failure (Option String) :=
  match user with
  | none => .ok none
  | some user => do
    let id ← match user.id with
      | none => .error (.typeError "Invalid account identity.")
      | some id => if id = "" then .error (.typeError "Invalid account identity.") else .ok id
    match user.accountIncarnation with
    | none => .ok (some id)
    | some incarnation =>
      if validAccountIncarnation incarnation then
        .ok (incarnation.map fun text => "account:v1:" ++ text)
      else .error (.typeError "Invalid account incarnation.")

/-- The account and the owner of the tab, the two items of the sign-out marker, which
cannot always be read, and the connection, which is an object of its own. -/
structure Tab where
  user : Option User
  localOwnerId : Option String
  marker : Option (Option String × Option String)
  database : Option Nat
  deriving DecidableEq, Repr

/-- A string that the source takes for a value: one that is not empty. -/
def truthy (text : Option String) : Option String := text.filter fun text => text ≠ ""

def Tab.ownerId (tab : Tab) : Except Failure (Option String) := do
  let ownerId ← accountOwnerId tab.user
  .ok ((truthy ownerId).or (truthy tab.localOwnerId))

structure Identity where
  ownerId : Option String
  localOwnerId : Option String
  logoutMarker : Option (Option String × Option String)
  deriving DecidableEq, Repr

def accountIdentity (tab : Tab) : Except Failure Identity := do
  let ownerId ← tab.ownerId
  .ok ⟨ownerId, tab.localOwnerId, tab.marker⟩

def Identity.assertCurrent (identity : Identity) (tab : Tab) : Except Failure Unit := do
  let ownerId ← tab.ownerId
  check (¬(ownerId ≠ identity.ownerId ∨ tab.localOwnerId ≠ identity.localOwnerId ∨
    tab.marker ≠ identity.logoutMarker)) .accountOwnership

/-! ## Contexts -/

structure Context where
  database : Option Nat
  identity : Identity
  deriving DecidableEq, Repr

def captureAccountContext (tab : Tab) : Except Failure Context := do
  let identity ← accountIdentity tab
  .ok ⟨tab.database, identity⟩

namespace Context

def assertConnection (context : Context) (tab : Tab) : Except Failure Unit :=
  check (tab.database = context.database) .accountOwnership

def assertCurrent (context : Context) (tab : Tab) : Except Failure Unit := do
  context.assertConnection tab
  context.identity.assertCurrent tab

def isCurrent (context : Context) (tab : Tab) : Except Failure Bool :=
  match context.assertCurrent tab with
  | .ok () => .ok true
  | .error .accountOwnership => .ok false
  | .error e => .error e

/-- The end of `publishIdentity`, after the change: the context, and the one bound in
its place where the owner has changed. -/
def published (context : Context) (tab : Tab) : Except Failure (Context × Option Context) := do
  context.assertConnection tab
  let nextIdentity ← accountIdentity tab
  if (truthy context.identity.ownerId).isSome ∧ nextIdentity.ownerId ≠ context.identity.ownerId then
    .ok (context, some ⟨tab.database, nextIdentity⟩)
  else .ok ({ context with identity := nextIdentity }, none)

/-- A context is current exactly when capturing would give it again. -/
theorem isCurrent_iff {context : Context} {tab : Tab} :
    context.isCurrent tab = .ok true ↔ captureAccountContext tab = .ok context := by
  have hassert : context.isCurrent tab = .ok true ↔ context.assertCurrent tab = .ok () := by
    unfold isCurrent
    split <;> simp_all
  rw [hassert]
  simp only [assertCurrent, assertConnection, Identity.assertCurrent, captureAccountContext,
    accountIdentity, bind_ok_iff, check_ok_iff, not_or, not_not]
  constructor
  · intro h
    obtain ⟨-, hdatabase, ownerId, howner, hsame, hlocal, hmarker⟩ := h
    refine ⟨⟨ownerId, tab.localOwnerId, tab.marker⟩, ⟨ownerId, howner, rfl⟩, ?_⟩
    rw [hsame, hlocal, hmarker, hdatabase]
  · intro h
    obtain ⟨identity, ⟨ownerId, howner, hidentity⟩, heq⟩ := h
    cases hidentity
    cases heq
    exact ⟨(), rfl, ownerId, howner, rfl, rfl, rfl⟩

end Context

/-! ## Runs of a tab -/

/-- A context that has been bound, and whether a publication of its own has handed its
scope to another. -/
structure Bound where
  context : Context
  handedOff : Bool
  deriving DecidableEq, Repr

/-- The tab, the contexts bound so far in order, and those inside a publication of theirs. -/
structure System where
  tab : Tab
  contexts : List Bound
  publishing : List Nat
  deriving DecidableEq, Repr

def System.start (tab : Tab) : System := ⟨tab, [], []⟩

/-- What happens in a tab. The changes a publication makes stand between its two steps,
with whatever it calls, and a publication that raises is abandoned. -/
inductive Step : System → System → Prop where
  | change (s : System) (tab : Tab) : Step s { s with tab := tab }
  | capture {s : System} {context : Context} (h : captureAccountContext s.tab = .ok context) :
    Step s { s with contexts := s.contexts ++ [⟨context, false⟩] }
  | publish {s : System} {i : Nat} {bound : Bound} (hbound : s.contexts[i]? = some bound)
    (hcurrent : bound.context.assertCurrent s.tab = .ok ()) :
    Step s { s with publishing := i :: s.publishing }
  | published {s : System} {i : Nat} {bound : Bound} {context : Context} {next : Option Context}
    (hpublishing : i ∈ s.publishing) (hbound : s.contexts[i]? = some bound)
    (h : bound.context.published s.tab = .ok (context, next)) :
    Step s { s with
      contexts := s.contexts.set i ⟨context, bound.handedOff || next.isSome⟩ ++
        next.toList.map fun context => ⟨context, false⟩
      publishing := s.publishing.erase i }
  | abandoned {s : System} {i : Nat} (hpublishing : i ∈ s.publishing) :
    Step s { s with publishing := s.publishing.erase i }

/-- A change that is not the context's own has taken it out of force. -/
def Stale (s : System) (i : Nat) : Prop :=
  ∃ bound, s.contexts[i]? = some bound ∧ bound.handedOff = false ∧ i ∉ s.publishing ∧
    bound.context.isCurrent s.tab ≠ .ok true

def ReportedCurrent (s : System) (i : Nat) : Prop :=
  ∃ bound, s.contexts[i]? = some bound ∧ bound.context.isCurrent s.tab = .ok true

/-- What is out of force at the first state is so at the second. -/
def NeverBack (s t : System) : Prop := ∀ i, Stale s i → ¬ReportedCurrent t i

/-- The step does not bring back the connection, the owners and the marker that a bound
context holds, unless they are in force already. Contexts that publish or have handed
off do not count. -/
def NoReturn (s t : System) : Prop :=
  ∀ i bound, s.contexts[i]? = some bound → bound.handedOff = false → i ∉ s.publishing →
    captureAccountContext t.tab = .ok bound.context →
    captureAccountContext s.tab = .ok bound.context

section
variable {s t : System} {i : Nat}

theorem Stale.not_current (h : Stale s i) : ¬ReportedCurrent s i := by
  obtain ⟨bound, hbound, -, -, hnot⟩ := h
  intro hcurrent
  obtain ⟨bound', hbound', hcurrent⟩ := hcurrent
  rw [hbound] at hbound'
  cases hbound'
  exact hnot hcurrent

/-- A step that returns to nothing leaves a stale context stale. -/
theorem Stale.step (h : Stale s i) (hstep : Step s t) (hreturn : NoReturn s t) : Stale t i := by
  obtain ⟨bound, hbound, hhanded, hnotPublishing, hnot⟩ := h
  have hlength : i < s.contexts.length := (List.getElem?_eq_some_iff.mp hbound).1
  cases hstep with
  | change tab =>
    refine ⟨bound, hbound, hhanded, hnotPublishing, fun hcurrent => hnot ?_⟩
    rw [Context.isCurrent_iff] at hcurrent ⊢
    exact hreturn i bound hbound hhanded hnotPublishing hcurrent
  | capture hcapture =>
    exact ⟨bound, by rw [List.getElem?_append_left hlength, hbound], hhanded, hnotPublishing, hnot⟩
  | @publish j other hother hcurrent =>
    refine ⟨bound, hbound, hhanded, ?_, hnot⟩
    intro hmem
    rcases List.mem_cons.mp hmem with rfl | hmem
    · rw [hbound] at hother
      cases hother
      exact hnot (by simp [Context.isCurrent, hcurrent])
    · exact hnotPublishing hmem
  | @published j other context next hpublishing hother hfinish =>
    have hne : j ≠ i := fun heq => hnotPublishing (heq ▸ hpublishing)
    refine ⟨bound, ?_, hhanded, fun hmem => hnotPublishing (List.mem_of_mem_erase hmem), hnot⟩
    rw [List.getElem?_append_left (by simpa using hlength), List.getElem?_set_ne hne, hbound]
  | abandoned hpublishing =>
    exact ⟨bound, hbound, hhanded, fun hmem => hnotPublishing (List.mem_of_mem_erase hmem), hnot⟩

/-- Only a change of the tab can bring anything back. -/
theorem noReturn_of_neverBack (hstep : Step s t) (hback : NeverBack s t) : NoReturn s t := by
  intro i bound hbound hhanded hnotPublishing hcapture
  cases hstep with
  | change tab =>
    by_contra hnot
    rw [← Context.isCurrent_iff] at hcapture hnot
    exact hback i ⟨bound, hbound, hhanded, hnotPublishing, hnot⟩ ⟨bound, hbound, hcapture⟩
  | capture _ => exact hcapture
  | publish _ _ => exact hcapture
  | published _ _ _ => exact hcapture
  | abandoned _ => exact hcapture

theorem neverBack_of_chain : ∀ {run : List System} {s : System}, (s :: run).IsChain Step →
    (s :: run).IsChain NoReturn → ∀ i, Stale s i → ∀ t ∈ run, Stale t i
  | [], _, _, _, _, _, t, ht => by cases ht
  | next :: run, s, hrun, hreturn, i, hstale, t, ht => by
    obtain ⟨hstep, hrun⟩ := List.isChain_cons_cons.mp hrun
    obtain ⟨hfirst, hreturn⟩ := List.isChain_cons_cons.mp hreturn
    have hnext := hstale.step hstep hfirst
    rcases List.mem_cons.mp ht with rfl | ht
    · exact hnext
    · exact neverBack_of_chain hrun hreturn i hnext t ht

theorem pairwise_iff : ∀ {run : List System}, run.IsChain Step →
    (run.Pairwise NeverBack ↔ run.IsChain NoReturn)
  | [], _ => by simp
  | [s], _ => by simp
  | s :: next :: run, hrun => by
    obtain ⟨hstep, hlater⟩ := List.isChain_cons_cons.mp hrun
    have ih := pairwise_iff hlater
    rw [List.pairwise_cons, List.isChain_cons_cons, ih]
    constructor
    · intro h
      obtain ⟨hback, hreturn⟩ := h
      exact ⟨noReturn_of_neverBack hstep (hback next List.mem_cons_self), hreturn⟩
    · intro h
      refine ⟨fun t ht i hstale => ?_, h.2⟩
      exact (neverBack_of_chain hrun (List.isChain_cons_cons.mpr h) i hstale t ht).not_current

end

/-- Ada's tab and Bob's, on one connection. -/
def adaTab : Tab := ⟨none, some "ada", some (none, none), some 0⟩

def bobTab : Tab := ⟨none, some "bob", some (none, none), some 0⟩

def adaContext : Context := ⟨some 0, ⟨some "ada", some "ada", some (none, none)⟩⟩

theorem capture_adaTab : captureAccountContext adaTab = .ok adaContext := by decide

theorem bob_chain : [System.start adaTab, ⟨adaTab, [⟨adaContext, false⟩], []⟩,
    ⟨bobTab, [⟨adaContext, false⟩], []⟩].IsChain Step := by
  refine List.isChain_cons_cons.mpr ⟨.capture capture_adaTab, ?_⟩
  exact List.isChain_cons_cons.mpr ⟨.change _ bobTab, List.isChain_singleton _⟩

end Pomodorough.Web.AccountContexts
