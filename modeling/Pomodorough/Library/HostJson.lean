import Mathlib.Data.List.Perm.Basic
import Pomodorough.Library.HostNumbers

/-! # JSON texts as a browser writes them

Values as a browser holds them, with text as UTF-16 code units and objects as their
properties in the order they were created. Two values are written alike exactly if they
are alike once their properties are put in the order a browser lists them. -/
namespace Pomodorough.Library.HostJson
open Pomodorough.Library.JsonText (Str text quote backslash comma colon openBracket closeBracket
  openBrace closeBrace decimal digitsValue isDigit isHighSurrogate isLowSurrogate unicodeEscape
  shortEscapes Unit16 scanUnits scanUnits_raw scanUnits_short scanUnits_quote
  scanUnits_unicodeEscape Ends)
open Pomodorough.Library.HostNumbers (Number isNumberChar minusSign)

/-- A number too large to be held is read as an infinity. -/
inductive Value where
  | null
  | bool (value : Bool)
  | number (value : Number)
  | infinite (negative : Bool)
  | string (units : Str)
  | array (items : List Value)
  | object (fields : List (Str × Value))

theorem Value.induct {P : Value → Prop} (null : P .null) (bool : ∀ value, P (.bool value))
    (number : ∀ value, P (.number value)) (infinite : ∀ negative, P (.infinite negative))
    (string : ∀ units, P (.string units))
    (array : ∀ items, (∀ item ∈ items, P item) → P (.array items))
    (object : ∀ fields, (∀ field ∈ fields, P field.2) → P (.object fields)) (value : Value) :
    P value := by
  refine Value.rec (motive_1 := P) (motive_2 := fun items => ∀ item ∈ items, P item)
    (motive_3 := fun fields => ∀ field ∈ fields, P field.2) (motive_4 := fun field => P field.2)
    null bool number infinite string array object ?_ ?_ ?_ ?_ ?_ value
  · intro item hitem
    cases hitem
  · intro head tail hhead htail
    exact List.forall_mem_cons.mpr ⟨hhead, htail⟩
  · intro field hfield
    cases hfield
  · intro head tail hhead htail
    exact List.forall_mem_cons.mpr ⟨hhead, htail⟩
  · intro key value hvalue
    exact hvalue

/-! ## The order of properties -/

section Fields
variable {α β : Type}

/-- The number that a key is as an index of an array. -/
def arrayIndex (key : Str) : Option Nat :=
  let n := digitsValue key
  if decimal n = key ∧ n < 4294967295 then some n else none

/-- Properties as they are listed: indices by their size, then other keys by their age. -/
def ownFields (fields : List (Str × α)) : List (Str × α) :=
  (fields.filter fun field => (arrayIndex field.1).isSome).insertionSort
      (fun a b => (arrayIndex a.1).getD 0 ≤ (arrayIndex b.1).getD 0) ++
    fields.filter fun field => (arrayIndex field.1).isNone

theorem ownFields_perm (fields : List (Str × α)) : (ownFields fields).Perm fields := by
  have hsorted := List.perm_insertionSort
    (fun a b : Str × α => (arrayIndex a.1).getD 0 ≤ (arrayIndex b.1).getD 0)
    (fields.filter fun field => (arrayIndex field.1).isSome)
  have hsplit := List.filter_append_perm (fun field : Str × α => (arrayIndex field.1).isSome) fields
  refine (hsorted.append_right _).trans ?_
  simpa using hsplit

/-- The order of properties does not look at their values. -/
theorem ownFields_map (f : α → β) (fields : List (Str × α)) :
    ownFields (fields.map (Prod.map id f)) = (ownFields fields).map (Prod.map id f) := by
  have hsort := List.map_insertionSort
    (fun a b : Str × α => (arrayIndex a.1).getD 0 ≤ (arrayIndex b.1).getD 0)
    (fun a b : Str × β => (arrayIndex a.1).getD 0 ≤ (arrayIndex b.1).getD 0) (Prod.map id f)
    (fields.filter fun field => (arrayIndex field.1).isSome) fun _ _ _ _ => Iff.rfl
  unfold ownFields
  rw [List.map_append, hsort, List.filter_map, List.filter_map]
  rfl

end Fields

/-! ## Writing -/

/-- A code unit that is not half of a pair. -/
def quoteUnit (c : Nat) : Str :=
  match shortEscapes.lookup c with
  | some letter => [backslash, letter]
  | none => if c < 0x20 ∨ isHighSurrogate c ∨ isLowSurrogate c then unicodeEscape c else [c]

def quoteUnits : Str → Str
  | [] => []
  | [c] => quoteUnit c
  | high :: low :: rest =>
    if isHighSurrogate high ∧ isLowSurrogate low then high :: low :: quoteUnits rest
    else quoteUnit high ++ quoteUnits (low :: rest)

def quoteJSONString (units : Str) : Str := quote :: (quoteUnits units ++ [quote])

/-- Texts with commas between them. -/
def joined : List Str → Str
  | [] => []
  | first :: later => first ++ later.flatMap fun part => comma :: part

def member (field : Str × Str) : Str := quoteJSONString field.1 ++ colon :: field.2

mutual

def stringify : Value → Str
  | .null => text "null"
  | .bool value => if value then text "true" else text "false"
  | .number value => value.write
  | .infinite _ => text "null"
  | .string units => quoteJSONString units
  | .array items => openBracket :: (joined (stringifyItems items) ++ [closeBracket])
  | .object fields =>
    openBrace :: (joined ((ownFields (stringifyFields fields)).map member) ++ [closeBrace])

def stringifyItems : List Value → List Str
  | [] => []
  | item :: items => stringify item :: stringifyItems items

def stringifyFields : List (Str × Value) → List (Str × Str)
  | [] => []
  | (key, value) :: fields => (key, stringify value) :: stringifyFields fields

end

@[simp] theorem stringifyItems_eq (items : List Value) : stringifyItems items = items.map stringify := by
  induction items with
  | nil => rfl
  | cons item items ih => rw [stringifyItems, ih, List.map_cons]

@[simp] theorem stringifyFields_eq (fields : List (Str × Value)) :
    stringifyFields fields = fields.map (Prod.map id stringify) := by
  induction fields with
  | nil => rfl
  | cons field fields ih => rw [stringifyFields, ih, List.map_cons]; rfl

/-! ## Strings are told apart -/

/-- The code unit of a scanned character. -/
def unitValue : Unit16 → Nat
  | .raw c => c
  | .escaped n => n

theorem scanUnits_quoteUnit (c : Nat) (rest : Str) :
    ∃ unit, unitValue unit = c ∧ scanUnits (quoteUnit c ++ rest) =
      (scanUnits rest).map fun (units, rest) => (unit :: units, rest) := by
  unfold quoteUnit
  cases hshort : shortEscapes.lookup c with
  | some letter => exact ⟨.raw c, rfl, scanUnits_short hshort rest⟩
  | none =>
    simp only
    split
    · rename_i hescape
      have hsmall : c < 0x10000 := by
        simp only [isHighSurrogate, isLowSurrogate, Bool.and_eq_true, decide_eq_true_eq] at hescape
        omega
      exact ⟨.escaped c, rfl, scanUnits_unicodeEscape hsmall rest⟩
    · rename_i hraw
      refine ⟨.raw c, rfl, scanUnits_raw ?_ ?_ (by omega) rest⟩
      · intro heq
        rw [heq] at hshort
        cases hshort
      · intro heq
        rw [heq] at hshort
        cases hshort

theorem scanUnits_surrogate {c : Nat} (h : isHighSurrogate c = true ∨ isLowSurrogate c = true)
    (rest : Str) :
    scanUnits (c :: rest) = (scanUnits rest).map fun (units, rest) => (.raw c :: units, rest) := by
  simp only [isHighSurrogate, isLowSurrogate, Bool.and_eq_true, decide_eq_true_eq] at h
  exact scanUnits_raw (by simp only [quote]; omega) (by simp only [backslash]; omega) (by omega) rest

/-- A quoted text is scanned to its code units. -/
theorem scanUnits_quoteUnits (s rest : Str) :
    ∃ units, units.map unitValue = s ∧ scanUnits (quoteUnits s ++ quote :: rest) = some (units, rest) := by
  fun_induction quoteUnits s with
  | case1 => exact ⟨[], rfl, scanUnits_quote rest⟩
  | case2 c =>
    obtain ⟨unit, hunit, hscan⟩ := scanUnits_quoteUnit c (quote :: rest)
    exact ⟨[unit], by rw [List.map_singleton, hunit], by rw [hscan, scanUnits_quote]; rfl⟩
  | case3 high low later hpair ih =>
    obtain ⟨units, hunits, hscan⟩ := ih
    refine ⟨.raw high :: .raw low :: units, by rw [List.map_cons, List.map_cons, hunits]; rfl, ?_⟩
    rw [List.cons_append, List.cons_append, scanUnits_surrogate (.inl hpair.1),
      scanUnits_surrogate (.inr hpair.2), hscan]
    rfl
  | case4 high low later hpair ih =>
    obtain ⟨units, hunits, hscan⟩ := ih
    obtain ⟨unit, hunit, hfirst⟩ :=
      scanUnits_quoteUnit high (quoteUnits (low :: later) ++ quote :: rest)
    refine ⟨unit :: units, by rw [List.map_cons, hunit, hunits], ?_⟩
    rw [List.append_assoc, hfirst, hscan]
    rfl

/-- Quoted texts end where they say. -/
theorem quoteJSONString_append {s s' rest rest' : Str}
    (h : quoteJSONString s ++ rest = quoteJSONString s' ++ rest') : s = s' ∧ rest = rest' := by
  simp only [quoteJSONString, List.cons_append, List.append_assoc, List.nil_append,
    List.cons.injEq, true_and] at h
  obtain ⟨units, hunits, hscan⟩ := scanUnits_quoteUnits s rest
  obtain ⟨units', hunits', hscan'⟩ := scanUnits_quoteUnits s' rest'
  rw [h, hscan', Option.some.injEq, Prod.mk.injEq] at hscan
  obtain ⟨heq, hrest⟩ := hscan
  exact ⟨by rw [← hunits, ← hunits', heq], hrest.symm⟩

/-! ## Texts are told apart -/

section Joined
variable {α β : Type} {write : α → Str} {view : α → β} {close : Nat}

theorem ends_later (hclose : close = closeBracket ∨ close = closeBrace) (l : List Str) (rest : Str) :
    Ends ((l.flatMap fun part => comma :: part) ++ close :: rest) := by
  intro c hc
  cases l with
  | nil =>
    cases hc
    exact .inr (hclose.imp id .inl)
  | cons part later =>
    cases hc
    exact .inl rfl

/-- The parts after the first are told apart if each part is. -/
theorem later_append (hclose : close = closeBracket ∨ close = closeBrace) {l l' : List α}
    (h : ∀ a ∈ l, ∀ a' rest rest', Ends rest → Ends rest' →
      write a ++ rest = write a' ++ rest' → view a = view a' ∧ rest = rest')
    {rest rest' : Str}
    (heq : ((l.map write).flatMap fun part => comma :: part) ++ close :: rest =
      ((l'.map write).flatMap fun part => comma :: part) ++ close :: rest') :
    l.map view = l'.map view ∧ rest = rest' := by
  have hcomma : comma ≠ close := by
    rcases hclose with rfl | rfl <;> decide
  induction l generalizing l' with
  | nil =>
    cases l' with
    | nil => exact ⟨rfl, (List.cons.inj heq).2⟩
    | cons a' later' => exact absurd (List.cons.inj heq).1.symm hcomma
  | cons a later ih =>
    cases l' with
    | nil => exact absurd (List.cons.inj heq).1 hcomma
    | cons a' later' =>
      simp only [List.map_cons, List.flatMap_cons, List.cons_append, List.append_assoc,
        List.cons.injEq, true_and] at heq
      obtain ⟨hview, hrest⟩ := h a List.mem_cons_self a' _ _ (ends_later hclose _ _)
        (ends_later hclose _ _) heq
      obtain ⟨hlater, hrest⟩ := ih (fun b hb => h b (List.mem_cons_of_mem _ hb)) hrest
      exact ⟨by rw [List.map_cons, List.map_cons, hview, hlater], hrest⟩

/-- Joined parts are told apart if each part is and none begins as the text ends. -/
theorem joined_append (hclose : close = closeBracket ∨ close = closeBrace) {l l' : List α}
    (hwrite : ∀ a, ∃ c rest, write a = c :: rest ∧ c ≠ close)
    (h : ∀ a ∈ l, ∀ a' rest rest', Ends rest → Ends rest' →
      write a ++ rest = write a' ++ rest' → view a = view a' ∧ rest = rest')
    {rest rest' : Str}
    (heq : joined (l.map write) ++ close :: rest = joined (l'.map write) ++ close :: rest') :
    l.map view = l'.map view ∧ rest = rest' := by
  cases l with
  | nil =>
    cases l' with
    | nil => exact ⟨rfl, (List.cons.inj heq).2⟩
    | cons a' later' =>
      obtain ⟨c, text, hfirst, hne⟩ := hwrite a'
      simp only [List.map_cons, joined, hfirst, List.cons_append] at heq
      exact absurd (List.cons.inj heq).1.symm hne
  | cons a later =>
    cases l' with
    | nil =>
      obtain ⟨c, text, hfirst, hne⟩ := hwrite a
      simp only [List.map_cons, joined, hfirst, List.cons_append] at heq
      exact absurd (List.cons.inj heq).1 hne
    | cons a' later' =>
      simp only [List.map_cons, joined, List.append_assoc] at heq
      obtain ⟨hview, hrest⟩ := h a List.mem_cons_self a' _ _ (ends_later hclose _ _)
        (ends_later hclose _ _) heq
      obtain ⟨hlater, hrest⟩ :=
        later_append hclose (fun b hb => h b (List.mem_cons_of_mem _ hb)) hrest
      exact ⟨by rw [List.map_cons, List.map_cons, hview, hlater], hrest⟩

end Joined

theorem takeWhile_number (value : Number) {rest : Str} (h : Ends rest) :
    (value.write ++ rest).takeWhile isNumberChar = value.write := by
  rw [List.takeWhile_append_of_pos value.write_chars]
  cases rest with
  | nil => simp
  | cons c rest =>
    have hc : isNumberChar c = false := by
      obtain rfl | rfl | rfl | rfl := h c rfl <;> rfl
    simp [hc]

theorem number_append {value value' : Number} {rest rest' : Str} (h : Ends rest) (h' : Ends rest')
    (heq : value.write ++ rest = value'.write ++ rest') : value = value' ∧ rest = rest' := by
  have hwrite : value.write = value'.write := by
    rw [← takeWhile_number value h, heq, takeWhile_number value' h']
  rw [hwrite] at heq
  exact ⟨Number.write_injective hwrite, List.append_cancel_left heq⟩

/-- What the first character of a text says of its value. -/
inductive Kind where
  | null
  | bool (value : Bool)
  | number
  | string
  | array
  | object
  deriving DecidableEq

def Value.kind : Value → Kind
  | .null | .infinite _ => .null
  | .bool value => .bool value
  | .number _ => .number
  | .string _ => .string
  | .array _ => .array
  | .object _ => .object

def kindOf (c : Nat) : Option Kind :=
  if isDigit c ∨ c = minusSign then some .number
  else if c = 0x6e then some .null
  else if c = 0x74 then some (.bool true)
  else if c = 0x66 then some (.bool false)
  else if c = quote then some .string
  else if c = openBracket then some .array
  else if c = openBrace then some .object
  else none

theorem stringify_cons (value : Value) :
    ∃ c rest, stringify value = c :: rest ∧ kindOf c = some value.kind := by
  cases value with
  | null => exact ⟨_, _, rfl, rfl⟩
  | bool value => cases value <;> exact ⟨_, _, rfl, rfl⟩
  | number value =>
    obtain ⟨c, rest, heq, hfirst⟩ := value.write_cons
    exact ⟨c, rest, heq, if_pos hfirst⟩
  | infinite negative => exact ⟨_, _, rfl, rfl⟩
  | string units => exact ⟨_, _, rfl, rfl⟩
  | array items => exact ⟨_, _, rfl, rfl⟩
  | object fields => exact ⟨_, _, rfl, rfl⟩

theorem kind_of_append {value value' : Value} {rest rest' : Str}
    (h : stringify value ++ rest = stringify value' ++ rest') : value.kind = value'.kind := by
  obtain ⟨c, text, heq, hkind⟩ := stringify_cons value
  obtain ⟨c', text', heq', hkind'⟩ := stringify_cons value'
  rw [heq, heq', List.cons_append, List.cons_append] at h
  rw [(List.cons.inj h).1, hkind'] at hkind
  exact (Option.some.inj hkind).symm

mutual

/-- A value with its properties as they are listed, and infinities as they are written. -/
def ordered : Value → Value
  | .array items => .array (orderedItems items)
  | .object fields => .object (ownFields (orderedFields fields))
  | .infinite _ => .null
  | .null => .null
  | .bool value => .bool value
  | .number value => .number value
  | .string units => .string units

def orderedItems : List Value → List Value
  | [] => []
  | item :: items => ordered item :: orderedItems items

def orderedFields : List (Str × Value) → List (Str × Value)
  | [] => []
  | (key, value) :: fields => (key, ordered value) :: orderedFields fields

end

@[simp] theorem orderedItems_eq (items : List Value) : orderedItems items = items.map ordered := by
  induction items with
  | nil => rfl
  | cons item items ih => rw [orderedItems, ih, List.map_cons]

@[simp] theorem orderedFields_eq (fields : List (Str × Value)) :
    orderedFields fields = fields.map (Prod.map id ordered) := by
  induction fields with
  | nil => rfl
  | cons field fields ih => rw [orderedFields, ih, List.map_cons]; rfl

theorem map_eq_of_map_eq {α β γ : Type} {f : α → β} {g : α → γ} {l l' : List α}
    (h : l.map f = l'.map f) (hg : ∀ a ∈ l, ∀ a', f a = f a' → g a = g a') :
    l.map g = l'.map g := by
  induction l generalizing l' with
  | nil => rw [List.map_eq_nil_iff.mp h.symm]
  | cons a later ih =>
    cases l' with
    | nil => cases h
    | cons a' later' =>
      obtain ⟨hfirst, hlater⟩ := List.cons.inj h
      rw [List.map_cons, List.map_cons, hg a List.mem_cons_self a' hfirst,
        ih hlater fun b hb => hg b (List.mem_cons_of_mem _ hb)]

theorem member_cons (field : Str × Value) :
    ∃ c rest, (member ∘ Prod.map id stringify) field = c :: rest ∧ c ≠ closeBrace :=
  ⟨quote, _, rfl, by decide⟩

/-- Texts that go on after two values end where the values do, and the values are alike. -/
theorem stringify_append (value : Value) : ∀ (value' : Value) (rest rest' : Str), Ends rest →
    Ends rest' → stringify value ++ rest = stringify value' ++ rest' →
      ordered value = ordered value' ∧ rest = rest' := by
  induction value using Value.induct with
  | array items ih =>
    intro value' rest rest' hends hends' heq
    have hkind := kind_of_append heq
    cases value' <;> simp only [Value.kind, reduceCtorEq] at hkind
    rename_i items'
    simp only [stringify, stringifyItems_eq, List.cons_append, List.append_assoc, List.nil_append,
      List.cons.injEq, true_and] at heq
    have hcons : ∀ item, ∃ c text, stringify item = c :: text ∧ c ≠ closeBracket := by
      intro item
      obtain ⟨c, text, htext, hkind⟩ := stringify_cons item
      exact ⟨c, text, htext, fun hc => by rw [hc] at hkind; cases hkind⟩
    obtain ⟨hitems, hrest⟩ := joined_append (.inl rfl) hcons ih heq
    exact ⟨by simp only [ordered, orderedItems_eq, hitems], hrest⟩
  | object fields ih =>
    intro value' rest rest' hends hends' heq
    have hkind := kind_of_append heq
    cases value' <;> simp only [Value.kind, reduceCtorEq] at hkind
    rename_i fields'
    simp only [stringify, stringifyFields_eq, ownFields_map, List.map_map, List.cons_append,
      List.append_assoc, List.nil_append, List.cons.injEq, true_and] at heq
    have hmembers : ∀ field ∈ ownFields fields, ∀ field' rest rest', Ends rest → Ends rest' →
        (member ∘ Prod.map id stringify) field ++ rest =
          (member ∘ Prod.map id stringify) field' ++ rest' →
        Prod.map id ordered field = Prod.map id ordered field' ∧ rest = rest' := by
      intro field hfield field' rest rest' hends hends' heq
      simp only [Function.comp, member, Prod.map_fst, Prod.map_snd, id, List.append_assoc,
        List.cons_append] at heq
      obtain ⟨hkey, hvalue⟩ := quoteJSONString_append heq
      obtain ⟨halike, hrest⟩ := ih field ((ownFields_perm fields).mem_iff.mp hfield) field'.2 rest
        rest' hends hends' (List.cons.inj hvalue).2
      exact ⟨Prod.ext hkey halike, hrest⟩
    obtain ⟨hfields, hrest⟩ := joined_append (.inr rfl) member_cons hmembers heq
    exact ⟨by simp only [ordered, orderedFields_eq, ownFields_map, hfields], hrest⟩
  | number value =>
    intro value' rest rest' hends hends' heq
    have hkind := kind_of_append heq
    cases value' <;> simp only [Value.kind, reduceCtorEq] at hkind
    obtain ⟨hvalue, hrest⟩ := number_append hends hends' heq
    exact ⟨by rw [hvalue], hrest⟩
  | string units =>
    intro value' rest rest' hends hends' heq
    have hkind := kind_of_append heq
    cases value' <;> simp only [Value.kind, reduceCtorEq] at hkind
    obtain ⟨hunits, hrest⟩ := quoteJSONString_append heq
    exact ⟨by rw [hunits], hrest⟩
  | null =>
    intro value' rest rest' hends hends' heq
    have hkind := kind_of_append heq
    cases value' <;> simp only [Value.kind, reduceCtorEq] at hkind
    all_goals exact ⟨rfl, List.append_cancel_left heq⟩
  | infinite negative =>
    intro value' rest rest' hends hends' heq
    have hkind := kind_of_append heq
    cases value' <;> simp only [Value.kind, reduceCtorEq] at hkind
    all_goals exact ⟨rfl, List.append_cancel_left heq⟩
  | bool value =>
    intro value' rest rest' hends hends' heq
    have hkind := kind_of_append heq
    cases value' <;> simp only [Value.kind, reduceCtorEq, Kind.bool.injEq] at hkind
    rw [hkind] at heq ⊢
    exact ⟨rfl, List.append_cancel_left heq⟩

theorem stringify_of_ordered (value : Value) :
    ∀ value', ordered value = ordered value' → stringify value = stringify value' := by
  induction value using Value.induct with
  | array items ih =>
    intro value' h
    cases value' <;> simp only [ordered, orderedItems_eq, reduceCtorEq, Value.array.injEq] at h
    simp only [stringify, stringifyItems_eq, map_eq_of_map_eq h ih]
  | object fields ih =>
    intro value' h
    cases value' <;>
      simp only [ordered, orderedFields_eq, ownFields_map, reduceCtorEq, Value.object.injEq] at h
    have hfields := map_eq_of_map_eq (g := Prod.map id stringify) h (by
      intro field hfield field' heq
      obtain ⟨hkey, hvalue⟩ := Prod.mk.inj heq
      exact Prod.ext hkey (ih field ((ownFields_perm fields).mem_iff.mp hfield) field'.2 hvalue))
    simp only [stringify, stringifyFields_eq, ownFields_map, hfields]
  | null | infinite =>
    intro value' h
    cases value' <;> simp only [ordered, reduceCtorEq] at h
    all_goals rfl
  | bool | number | string =>
    intro value' h
    cases value' <;> simp only [ordered, reduceCtorEq] at h
    rw [h]

/-- Two values are written alike exactly if they are alike in the order they are listed. -/
theorem stringify_eq_iff {value value' : Value} :
    stringify value = stringify value' ↔ ordered value = ordered value' := by
  constructor
  · intro h
    have hends : Ends [] := by
      intro c hc
      cases hc
    exact (stringify_append value value' [] [] hends hends (by rw [h])).1
  · exact stringify_of_ordered value value'

end Pomodorough.Library.HostJson
