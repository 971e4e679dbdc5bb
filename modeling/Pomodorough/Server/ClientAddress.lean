import Pomodorough.Library.NetworkAddresses
import Pomodorough.Library.Utf8

/-! # The address of a client

Proxies append the address they were called from to a header line that anyone may
begin. With as many trusted proxies as the policy counts, the address it selects was
never written by the caller of the first of them or of a later one. -/
namespace Pomodorough.Server.ClientAddress
open Pomodorough.Library
open Pomodorough.Library.NetworkAddresses

/-! ## The source -/

def maxForwardedChainBytes : Nat := 2048

def maxForwardedChainLength : Nat := 32

/-- `unicode.IsSpace`, encoded. -/
def spaces : List Bytes :=
  (([9, 10, 11, 12, 13, 32, 0x85, 0xa0, 0x1680] ++ (List.range 11).map (0x2000 + ·) ++
    [0x2028, 0x2029, 0x202f, 0x205f, 0x3000]).map Char.ofNat).map fun c => Utf8.encode [c]

def trimLeft (spaces : List Bytes) : Nat → Bytes → Bytes
  | 0, s => s
  | n + 1, s =>
    match spaces.find? fun space => space.isPrefixOf s with
    | some space => trimLeft spaces n (s.drop space.length)
    | none => s

/-- `strings.TrimSpace` -/
def trimSpace (s : Bytes) : Bytes :=
  let s := trimLeft spaces s.length s
  (trimLeft (spaces.map List.reverse) s.length s.reverse).reverse

abbrev comma : UInt8 := 44

def normalizedAddress (address : Addr) : Addr := (address.withZone []).unmap

def parseNetworkAddress (raw : Bytes) : Option Addr :=
  let value := trimSpace raw
  match parseAddrPort value with
  | some (address, _) => some (normalizedAddress address)
  | none => (parseAddr value).map normalizedAddress

/-- The peer of the connection, and the lines of the header `X-Forwarded-For`. -/
structure Request where
  remoteAddr : Bytes
  forwardedFor : List Bytes

structure ClientIPPolicy where
  trustedProxyCIDRs : List Prefix
  trustedProxyHops : Nat

def newClientIPPolicy (cidrs : List Prefix) (hops : Int) : Option ClientIPPolicy :=
  if cidrs.length = 0 ∧ hops = 0 then some ⟨[], 0⟩
  else if cidrs.length = 0 ∨ hops < 1 ∨ hops > 16 then none
  else if cidrs.any fun cidr => !cidr.isValid then none
  else some ⟨cidrs.map Prefix.masked, hops.toNat⟩

namespace ClientIPPolicy

def trusts (policy : ClientIPPolicy) (address : Addr) : Bool :=
  policy.trustedProxyCIDRs.any fun cidr => cidr.contains address

end ClientIPPolicy

def forwardedChain (values : List Bytes) : Option (List Addr) :=
  match values with
  | [value] =>
    if value.length = 0 ∨ value.length > maxForwardedChainBytes then none
    else
      let items := value.splitOn comma
      if items.length > maxForwardedChainLength then none
      else items.mapM parseNetworkAddress
  | _ => none

namespace ClientIPPolicy

def validProxyBoundary (policy : ClientIPPolicy) (chain : List Addr) (clientIndex : Nat) : Bool :=
  !chain[clientIndex]?.any policy.trusts && (chain.drop (clientIndex + 1)).all policy.trusts

/-- The policy counts one proxy at least where the chain is indexed, so the index is in range. -/
def clientIP (policy : ClientIPPolicy) (r : Request) : Bytes :=
  match parseNetworkAddress r.remoteAddr with
  | none => trimSpace r.remoteAddr
  | some direct =>
    if policy.trustedProxyHops = 0 ∨ policy.trusts direct = false then direct.string
    else
      match forwardedChain r.forwardedFor with
      | none => direct.string
      | some chain =>
        if chain.length < policy.trustedProxyHops then direct.string
        else
          let clientIndex := chain.length - policy.trustedProxyHops
          match chain[clientIndex]? with
          | none => direct.string
          | some client =>
            if policy.validProxyBoundary chain clientIndex then client.string else direct.string

end ClientIPPolicy

/-! ## Trust -/

/-- A policy trusts what the configured prefixes contain. -/
theorem trusts_newClientIPPolicy {cidrs : List Prefix} {hops : Int} {policy : ClientIPPolicy}
    (h : newClientIPPolicy cidrs hops = some policy) (address : Addr) :
    policy.trusts address = cidrs.any fun cidr => cidr.contains address := by
  unfold newClientIPPolicy at h
  split at h
  · rename_i hempty
    obtain rfl := List.length_eq_zero_iff.mp hempty.1
    cases h
    rfl
  · split at h
    · cases h
    · split at h
      · cases h
      · cases h
        simp [ClientIPPolicy.trusts, List.any_map, Function.comp_def, Prefix.contains_masked]

/-! ## The direct peer -/

/-- The peer of the connection, as the policy writes it. -/
def directAddress (remoteAddr : Bytes) : Bytes :=
  match parseNetworkAddress remoteAddr with
  | none => trimSpace remoteAddr
  | some direct => direct.string

section
variable {policy : ClientIPPolicy} {remoteAddr : Bytes} {values : List Bytes}

theorem clientIP_untrusted
    (h : ∀ direct, parseNetworkAddress remoteAddr = some direct → policy.trusts direct = false) :
    policy.clientIP ⟨remoteAddr, values⟩ = directAddress remoteAddr := by
  unfold ClientIPPolicy.clientIP directAddress
  cases hdirect : parseNetworkAddress remoteAddr with
  | none => rfl
  | some direct => simp only [h direct hdirect, or_true, if_true]

/-- The address is the direct peer's, or that of an entry of the chain which no prefix
contains while each one after it is contained. -/
theorem clientIP_cases : policy.clientIP ⟨remoteAddr, values⟩ = directAddress remoteAddr ∨
    ∃ chain client, forwardedChain values = some chain ∧
      policy.trustedProxyHops ≤ chain.length ∧
      chain[chain.length - policy.trustedProxyHops]? = some client ∧
      (∀ proxy ∈ chain.drop (chain.length - policy.trustedProxyHops + 1),
        policy.trusts proxy = true) ∧
      policy.clientIP ⟨remoteAddr, values⟩ = client.string := by
  unfold ClientIPPolicy.clientIP directAddress
  cases parseNetworkAddress remoteAddr with
  | none => exact .inl rfl
  | some direct =>
    simp only
    split
    · exact .inl rfl
    · split
      · exact .inl rfl
      · rename_i chain hchain
        split
        · exact .inl rfl
        · rename_i hlength
          split
          · exact .inl rfl
          · rename_i client hclient
            split
            · rename_i hvalid
              simp only [ClientIPPolicy.validProxyBoundary, Bool.and_eq_true,
                List.all_eq_true] at hvalid
              exact .inr ⟨chain, client, hchain, by omega, hclient, hvalid.2, rfl⟩
            · exact .inl rfl

end

/-! ## The line that proxies append to -/

/-- A text without a comma that the server reads as this address. -/
structure Writes (item : Bytes) (address : Addr) : Prop where
  single : comma ∉ item
  parsed : parseNetworkAddress item = some address

/-- A proxy appends an item to the line it was sent, if it was sent one. -/
def appendItem (line : Option Bytes) (item : Bytes) : Option Bytes :=
  match line with
  | none => some item
  | some line => some (line ++ comma :: item)

def appendItems (line : Option Bytes) (items : List Bytes) : Option Bytes :=
  items.foldl appendItem line

section
variable {line : Option Bytes} {items before : List Bytes} {chain : List Addr}

/-- Appended items are split off again. -/
theorem splitOn_appendItems {value : Bytes} (hitems : ∀ item ∈ items, comma ∉ item)
    (h : appendItems line items = some value) :
    value.splitOn comma = line.elim [] (·.splitOn comma) ++ items := by
  induction items generalizing line with
  | nil =>
    obtain rfl : line = some value := h
    simp
  | cons item items ih =>
    obtain ⟨hitem, hitems⟩ := List.forall_mem_cons.mp hitems
    have hsplit := ih hitems h
    rw [hsplit]
    cases line with
    | none => simp [appendItem, List.splitOn_eq_singleton hitem]
    | some line => simp [appendItem, List.splitOn_append_cons_self, List.splitOn_eq_singleton hitem]

theorem mapM_append_some {f : Bytes → Option Addr} {first later : List Bytes}
    (h : (first ++ later).mapM f = some chain) :
    ∃ earlier rest, chain = earlier ++ rest ∧ first.mapM f = some earlier ∧
      later.mapM f = some rest := by
  rw [List.mapM_append] at h
  simp only [Option.bind_eq_bind, Option.pure_def, Option.bind_eq_some_iff, Option.some.injEq] at h
  obtain ⟨earlier, hearlier, rest, hrest, rfl⟩ := h
  exact ⟨earlier, rest, rfl, hearlier, hrest⟩

theorem mapM_writes {entries : List (Bytes × Addr)}
    (h : ∀ entry ∈ entries, Writes entry.1 entry.2) :
    (entries.map Prod.fst).mapM parseNetworkAddress = some (entries.map Prod.snd) := by
  induction entries with
  | nil => rfl
  | cons entry entries ih =>
    obtain ⟨hentry, hentries⟩ := List.forall_mem_cons.mp h
    simp [hentry.parsed, ih hentries]

/-- What is appended is read as the addresses of the callers, after whatever came before. -/
theorem forwardedChain_appendItems {entries : List (Bytes × Addr)}
    (hentries : ∀ entry ∈ entries, Writes entry.1 entry.2)
    (h : forwardedChain (appendItems line (entries.map Prod.fst)).toList = some chain) :
    ∃ earlier, chain = earlier ++ entries.map Prod.snd := by
  cases happended : appendItems line (entries.map Prod.fst) with
  | none =>
    rw [happended] at h
    cases h
  | some value =>
    rw [happended] at h
    have hsplit : value.splitOn comma =
        line.elim [] (·.splitOn comma) ++ entries.map Prod.fst := by
      refine splitOn_appendItems ?_ happended
      intro item hitem
      obtain ⟨entry, hentry, rfl⟩ := List.mem_map.mp hitem
      exact (hentries entry hentry).single
    simp only [forwardedChain, Option.toList_some] at h
    split at h
    · cases h
    · split at h
      · cases h
      · rw [hsplit] at h
        obtain ⟨earlier, rest, rfl, -, hrest⟩ := mapM_append_some h
        rw [mapM_writes hentries] at hrest
        cases hrest
        exact ⟨earlier, rfl⟩

end

/-! ## The claimants of an address -/

/-- A caller at one of the trusted proxies, counted from the outermost. It sends any line
or none. The proxy appends the caller's address to it, and each later proxy the address
of the one before. -/
structure Entry where
  proxy : Nat
  line : Option Bytes
  caller : Bytes × Addr
  proxies : List (Bytes × Addr)

/-- What the server receives from the innermost proxy. -/
def Entry.request (entry : Entry) (remoteAddr : Bytes) : Request :=
  ⟨remoteAddr,
    (appendItems entry.line ((entry.caller :: entry.proxies).map Prod.fst)).toList⟩

/-- The caller is not trusted, and the policy counts the proxies. -/
structure Entry.Enters (entry : Entry) (policy : ClientIPPolicy) : Prop where
  outermost : 1 ≤ entry.proxy
  innermost : entry.proxy ≤ policy.trustedProxyHops
  count : entry.proxies.length = policy.trustedProxyHops - entry.proxy
  writes : ∀ item ∈ entry.caller :: entry.proxies, Writes item.1 item.2
  untrusted : policy.trusts entry.caller.2 = false

/-- No caller chooses the address. Without a trusted peer the header lines do not matter,
and behind the proxies a caller is found at the address the outermost one appended, or
the address is the direct peer's. -/
theorem address_not_chosen (policy : ClientIPPolicy) :
    (∀ r r' : Request, r.remoteAddr = r'.remoteAddr →
      (∀ direct, parseNetworkAddress r.remoteAddr = some direct → policy.trusts direct = false) →
      policy.clientIP r = policy.clientIP r') ∧
    ∀ (entry : Entry) (remoteAddr : Bytes), entry.Enters policy →
      policy.clientIP (entry.request remoteAddr) = directAddress remoteAddr ∨
      entry.proxy = 1 ∧ policy.clientIP (entry.request remoteAddr) = entry.caller.2.string := by
  constructor
  · intro r r' hsame huntrusted
    obtain ⟨remoteAddr, values⟩ := r
    obtain ⟨remoteAddr', values'⟩ := r'
    obtain rfl : remoteAddr = remoteAddr' := hsame
    rw [clientIP_untrusted huntrusted, clientIP_untrusted huntrusted]
  · intro entry remoteAddr henters
    rcases clientIP_cases with hdirect | ⟨chain, client, hchain, hlength, hclient, hproxies, heq⟩
    · exact .inl hdirect
    · obtain ⟨earlier, rfl⟩ := forwardedChain_appendItems henters.writes hchain
      have houtermost := henters.outermost
      have hinnermost := henters.innermost
      have hcount := henters.count
      simp only [List.map_cons, List.length_append, List.length_cons, List.length_map,
        hcount] at hclient hproxies hlength
      rcases Nat.lt_or_ge 1 entry.proxy with hlater | hfirst
      · -- the selected entry stands before the caller's address, which is then checked
        exfalso
        have hmem : entry.caller.2 ∈ (earlier ++ entry.caller.2 :: entry.proxies.map Prod.snd).drop
            (earlier.length + (policy.trustedProxyHops - entry.proxy + 1) -
              policy.trustedProxyHops + 1) := by
          rw [List.drop_append_of_le_length (by omega)]
          exact List.mem_append_right _ List.mem_cons_self
        have htrusted := hproxies _ hmem
        rw [henters.untrusted] at htrusted
        cases htrusted
      · have hone : entry.proxy = 1 := by omega
        have hindex : earlier.length + (policy.trustedProxyHops - entry.proxy + 1) -
            policy.trustedProxyHops = earlier.length := by omega
        rw [hindex, List.getElem?_append_right (Nat.le_refl _), Nat.sub_self] at hclient
        obtain rfl : entry.caller.2 = client := Option.some.inj hclient
        exact .inr ⟨hone, heq⟩

/-- A forged line with a trusted address in it, sent to the inner one of two proxies. -/
theorem address_not_chosen_forged :
    let policy : ClientIPPolicy := ⟨[⟨.v4 0x0a000000#32, some 8, by simp [Addr.bitLen], rfl⟩], 2⟩
    let entry : Entry :=
      ⟨2, some (Utf8.encode "192.0.2.1".toList), (Utf8.encode " 203.0.113.9:80".toList,
        .v4 0xcb007109#32), []⟩
    policy.clientIP (entry.request (Utf8.encode "10.0.0.2:443".toList)) =
        directAddress (Utf8.encode "10.0.0.2:443".toList) ∨
      entry.proxy = 1 ∧ policy.clientIP (entry.request (Utf8.encode "10.0.0.2:443".toList)) =
        entry.caller.2.string := by
  intro policy entry
  refine (address_not_chosen policy).2 entry _ ⟨by decide, by decide, rfl, ?_, rfl⟩
  intro item hitem
  obtain rfl : item = entry.caller := by simpa [entry] using hitem
  exact ⟨by decide +kernel, by decide +kernel⟩

/-- Behind trusted proxies a caller that sends no line is found at its own address. -/
theorem clientIP_outermost {policy : ClientIPPolicy} {entry : Entry} {remoteAddr value : Bytes}
    {direct : Addr} (henters : entry.Enters policy) (houtermost : entry.proxy = 1)
    (hdirect : parseNetworkAddress remoteAddr = some direct) (hpeer : policy.trusts direct = true)
    (htrusted : ∀ item ∈ entry.proxies, policy.trusts item.2 = true)
    (hvalue : (entry.request remoteAddr).forwardedFor = [value]) (hline : entry.line = none)
    (hbytes : 0 < value.length ∧ value.length ≤ maxForwardedChainBytes)
    (hhops : policy.trustedProxyHops ≤ maxForwardedChainLength) :
    policy.clientIP (entry.request remoteAddr) = entry.caller.2.string := by
  have hcount := henters.count
  have hinnermost := henters.innermost
  have happended : appendItems entry.line ((entry.caller :: entry.proxies).map Prod.fst) =
      some value := by
    simpa [Entry.request] using hvalue
  have hsplit : value.splitOn comma = (entry.caller :: entry.proxies).map Prod.fst := by
    have hitems : ∀ item ∈ (entry.caller :: entry.proxies).map Prod.fst, comma ∉ item := by
      intro item hitem
      obtain ⟨written, hwritten, rfl⟩ := List.mem_map.mp hitem
      exact (henters.writes written hwritten).single
    simpa [hline] using splitOn_appendItems hitems happended
  have hchain : forwardedChain [value] = some ((entry.caller :: entry.proxies).map Prod.snd) := by
    simp only [forwardedChain, hsplit, mapM_writes henters.writes]
    rw [if_neg (by omega), if_neg (by simp; omega)]
  have hlength : ((entry.caller :: entry.proxies).map Prod.snd).length =
      policy.trustedProxyHops := by
    simp
    omega
  simp only [ClientIPPolicy.clientIP, Entry.request, hdirect, hpeer, Bool.true_eq_false, or_false]
  simp only [Entry.request] at hvalue
  rw [if_neg (by omega), hvalue, hchain]
  simp only [hlength, Nat.lt_irrefl, if_false, Nat.sub_self]
  simp only [List.map_cons, List.getElem?_cons_zero]
  rw [if_pos]
  simpa [ClientIPPolicy.validProxyBoundary, henters.untrusted] using htrusted

end Pomodorough.Server.ClientAddress
