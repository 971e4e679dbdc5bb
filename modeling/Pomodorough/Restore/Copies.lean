import Pomodorough.Restore.Trees

/-! # Copies of trees

When `copy_inventory` of `restore_drill.py` reproduces a tree: every directory above a file
or a directory has to be there, and the mode of every directory has to be one that `mkdir`
makes under the umask. -/
namespace Pomodorough.Restore.Copies
open Pomodorough.Library.Fallible Pomodorough.Library.OrderedMaps
open Pomodorough.Library.JsonText Pomodorough.Library.TextBytes
open Pomodorough.Restore.Trees

structure Reproducible (umask : Mode) (tree : Tree) : Prop where
  supported : ∀ path, tree.find? path ≠ some .other
  parents : ∀ path node, tree.find? path = some node → ∀ parent ∈ ancestors path,
    ∃ mode, tree.find? parent = some (.directory mode)
  modes : ∀ path mode, tree.find? path = some (.directory mode) →
    createdMode umask mode.toNat = mode

/-- What is there in one tree is there unchanged in the other. -/
def Grows (tree tree' : Tree) : Prop :=
  ∀ path node, tree.find? path = some node → tree'.find? path = some node

/-! ## Paths -/

section Paths
variable {path parent : Str}

theorem mem_ancestors (h : parent ∈ ancestors path) : ∃ rest, path = parent ++ slash :: rest := by
  induction path generalizing parent with
  | nil => cases h
  | cons c path ih =>
    have hmap : parent ∈ (ancestors path).map (c :: ·) → ∃ rest, c :: path = parent ++ slash :: rest := by
      intro hmem
      obtain ⟨above, habove, rfl⟩ := List.mem_map.mp hmem
      obtain ⟨rest, hrest⟩ := ih habove
      exact ⟨rest, by rw [hrest, List.cons_append]⟩
    rw [ancestors] at h
    split at h
    · next hslash =>
      obtain rfl | hmem := List.mem_cons.mp h
      · exact ⟨path, by rw [hslash, List.nil_append]⟩
      · exact hmap hmem
    · exact hmap h

theorem ancestors_of_noSlash (h : slash ∉ path) : ancestors path = [] := by
  refine List.eq_nil_iff_forall_not_mem.mpr ?_
  intro parent hmem
  obtain ⟨rest, rfl⟩ := mem_ancestors hmem
  exact h (by simp)

theorem lt_append_cons (s : Str) (c : Nat) (rest : Str) : s < s ++ c :: rest := by
  induction s with
  | nil => exact List.nil_lt_cons c rest
  | cons d s ih => exact List.cons_lt_cons_iff.mpr (.inr ⟨rfl, ih⟩)

/-- The directories above a path come before it. -/
theorem ancestor_lt (h : parent ∈ ancestors path) : parent < path := by
  obtain ⟨rest, rfl⟩ := mem_ancestors h
  exact lt_append_cons parent slash rest

end Paths

/-! ## Growth -/

section Growth
variable {host : Host} {umask : Mode} {mode : Nat} {source target target' final : Tree} {path : Str}
  {paths : List Str} {node : Node} {entry : Entry} {entries : List Entry}

theorem Grows.refl (tree : Tree) : Grows tree tree := fun _ _ h => h

theorem Grows.trans (h : Grows source target) (h' : Grows target final) : Grows source final :=
  fun path node hfind => h' path node (h path node hfind)

theorem grows_write (node : Node) (h : target.find? path = none) : Grows target (target.write path node) := by
  intro other kept hfind
  have hne : other ≠ path := by
    intro heq
    rw [heq, h] at hfind
    cases hfind
  rw [OrderedMap.find?_write_of_ne hne, hfind]

/-- Afterwards every one of the directories is there. -/
theorem makeParents_spec (h : makeParents umask mode target paths = .ok target') :
    Grows target target' ∧
      ∀ parent ∈ paths, ∃ made, target'.find? parent = some (.directory made) := by
  induction paths generalizing target with
  | nil =>
    cases h
    exact ⟨.refl _, nofun⟩
  | cons path paths ih =>
    rw [makeParents] at h
    cases hfind : target.find? path with
    | none =>
      rw [hfind] at h
      obtain ⟨hgrows, hmade⟩ := ih h
      refine ⟨(grows_write _ hfind).trans hgrows, List.forall_mem_cons.mpr ⟨?_, hmade⟩⟩
      exact ⟨_, hgrows path _ OrderedMap.find?_write_self⟩
    | some node =>
      cases node with
      | directory made =>
        rw [hfind] at h
        obtain ⟨hgrows, hmade⟩ := ih h
        exact ⟨hgrows, List.forall_mem_cons.mpr ⟨⟨made, hgrows path _ hfind⟩, hmade⟩⟩
      | file made contents =>
        rw [hfind] at h
        cases h
      | other =>
        rw [hfind] at h
        cases h

theorem makeNew_ok (h : makeNew target path node = .ok target') :
    target.find? path = none ∧ target' = target.write path node := by
  rw [makeNew] at h
  split at h
  · cases h
  · next hnone =>
    cases h
    exact ⟨by simpa using hnone, rfl⟩

/-- What copying one entry leaves in the target: the entry, with the directories above it. -/
structure Copied (umask : Mode) (source target : Tree) (entry : Entry) : Prop where
  parents : ∀ parent ∈ ancestors entry.path, ∃ made, target.find? parent = some (.directory made)
  directory : ∀ mode, source.find? entry.path = some (.directory mode) →
    target.find? entry.path = some (.directory (createdMode umask mode.toNat))

theorem Copied.grow (h : Copied umask source target entry) (hgrows : Grows target final) :
    Copied umask source final entry where
  parents parent hmem := by
    obtain ⟨made, hmade⟩ := h.parents parent hmem
    exact ⟨made, hgrows parent _ hmade⟩
  directory mode hmode := hgrows entry.path _ (h.directory mode hmode)

theorem copyEntry_spec (h : copyEntry host umask source target entry = .ok final) :
    Grows target final ∧ Copied umask source final entry := by
  cases entry with
  | directory path mode =>
    rw [copyEntry] at h
    split at h
    · next sourceMode hsource =>
      simp only [bind_ok_iff, check_ok_iff] at h
      obtain ⟨_, hmode, middle, hparents, hnew⟩ := h
      obtain ⟨hgrows, hmade⟩ := makeParents_spec hparents
      obtain ⟨hnone, rfl⟩ := makeNew_ok hnew
      have hlater := grows_write (.directory (createdMode umask mode)) hnone
      refine ⟨hgrows.trans hlater, fun parent hmem => ?_, fun other hother => ?_⟩
      · obtain ⟨made, hmade⟩ := hmade parent hmem
        exact ⟨made, hlater parent _ hmade⟩
      · rw [Entry.path, hsource] at hother
        cases hother
        rw [hmode, Entry.path, OrderedMap.find?_write_self]
    · cases h
    · cases h
  | file path mode size sha256 =>
    simp only [copyEntry, copyInventoryFile, bind_ok_iff, check_ok_iff] at h
    obtain ⟨middle, hparents, ⟨contents, sourceMode⟩, hread, _, _, copied, hnew, _, _, hpure⟩ := h
    cases hpure
    obtain ⟨hgrows, hmade⟩ := makeParents_spec hparents
    obtain ⟨hnone, rfl⟩ := makeNew_ok hnew
    have hlater := grows_write (.file (BitVec.ofNat 12 mode) contents) hnone
    refine ⟨hgrows.trans hlater, fun parent hmem => ?_, fun other hother => ?_⟩
    · obtain ⟨made, hmade⟩ := hmade parent hmem
      exact ⟨made, hlater parent _ hmade⟩
    · rw [Entry.path] at hother
      rw [readRegular, hother] at hread
      cases hread

theorem copyEntries_spec (h : copyEntries host umask source target entries = .ok final) :
    Grows target final ∧ ∀ entry ∈ entries, Copied umask source final entry := by
  induction entries generalizing target with
  | nil =>
    cases h
    exact ⟨.refl _, nofun⟩
  | cons entry entries ih =>
    obtain ⟨middle, hentry, hrest⟩ := bind_ok_iff.mp h
    obtain ⟨hgrows, hcopied⟩ := copyEntry_spec hentry
    obtain ⟨hlater, hall⟩ := ih hrest
    exact ⟨hgrows.trans hlater, List.forall_mem_cons.mpr ⟨hcopied.grow hlater, hall⟩⟩

end Growth

/-! ## Entries of an inventory -/

section Inventory
variable {host : Host} {tree : Tree} {path : Str} {entries : List Entry} {m : Nat}

theorem directory_mem_inventory (h : inventory host tree = .ok entries) :
    .directory path m ∈ entries ↔ ∃ mode, tree.find? path = some (.directory mode) ∧ mode.toNat = m := by
  rw [mem_inventory h]
  constructor
  · rintro ⟨⟨other, node⟩, hmem, hentry⟩
    cases node with
    | other => cases hentry
    | file mode contents => cases hentry
    | directory mode =>
      cases hentry
      exact ⟨mode, OrderedMap.find?_iff_mem.mpr hmem, rfl⟩
  · rintro ⟨mode, hfind, rfl⟩
    exact ⟨(path, .directory mode), OrderedMap.find?_iff_mem.mp hfind, rfl⟩

theorem inventory_supported (h : inventory host tree = .ok entries) (path : Str) :
    tree.find? path ≠ some .other := by
  intro hfind
  obtain ⟨entry, hentry⟩ := mapAll_each h _ (OrderedMap.find?_iff_mem.mp hfind)
  cases hentry

variable (host) in
theorem inventory_succeeds (h : ∀ path, tree.find? path ≠ some .other) :
    ∃ entries, inventory host tree = .ok entries := by
  refine mapAll_succeeds ?_
  rintro ⟨path, node⟩ hmem
  cases node with
  | other => exact absurd (OrderedMap.find?_iff_mem.mpr hmem) (h path)
  | file mode contents => exact ⟨_, rfl⟩
  | directory mode => exact ⟨_, rfl⟩

theorem mem_paths (h : inventory host tree = .ok entries) {node : Node}
    (hfind : tree.find? path = some node) : ∃ entry ∈ entries, entry.path = path := by
  have hmem : path ∈ entries.map Entry.path := by
    rw [inventory_paths h]
    exact List.mem_map_of_mem (OrderedMap.find?_iff_mem.mp hfind)
  exact List.mem_map.mp hmem

end Inventory

/-! ## A copy is the tree -/

section Copy
variable {host : Host} {umask : Mode} {tree target copy : Tree} {entries : List Entry}
  {items : List (Str × Node)}

/-- A tree that was copied faithfully can be. -/
theorem reproducible_of_copy (h : inventory host tree = .ok entries)
    (hcopy : copyInventory host umask tree entries = .ok copy)
    (hsame : inventory host copy = .ok entries) : Reproducible umask tree := by
  obtain ⟨-, hcopied⟩ := copyEntries_spec hcopy
  have hdirectory (path : Str) (made : Mode) (hmade : copy.find? path = some (.directory made)) :
      tree.find? path = some (.directory made) := by
    have hmem := (directory_mem_inventory hsame).mpr ⟨made, hmade, rfl⟩
    obtain ⟨mode, hmode, heq⟩ := (directory_mem_inventory h).mp hmem
    rw [hmode, BitVec.eq_of_toNat_eq heq]
  refine ⟨inventory_supported h, fun path node hfind parent hmem => ?_, fun path mode hfind => ?_⟩
  · obtain ⟨entry, hentry, rfl⟩ := mem_paths h hfind
    obtain ⟨made, hmade⟩ := (hcopied entry hentry).parents parent hmem
    exact ⟨made, hdirectory parent made hmade⟩
  · obtain ⟨entry, hentry, rfl⟩ := mem_paths h hfind
    have hmade := hdirectory entry.path _ ((hcopied entry hentry).directory mode hfind)
    rw [hfind] at hmade
    exact (Node.directory.inj (Option.some.inj hmade)).symm

theorem makeParents_present (mode : Nat) {paths : List Str}
    (h : ∀ path ∈ paths, ∃ made, target.find? path = some (.directory made)) :
    makeParents umask mode target paths = .ok target := by
  induction paths with
  | nil => rfl
  | cons path paths ih =>
    obtain ⟨⟨made, hmade⟩, hrest⟩ := List.forall_mem_cons.mp h
    rw [makeParents, hmade]
    exact ih hrest

/-- The rest of a tree is copied behind what is already there. -/
theorem copyEntries_reproduces (h : Reproducible umask tree)
    (htree : target.entries ++ items = tree.entries)
    (hentries : mapAll (inventoryEntry host) items = .ok entries) :
    copyEntries host umask tree target entries = .ok tree := by
  induction items generalizing target entries with
  | nil =>
    cases hentries
    rw [List.append_nil] at htree
    exact congrArg Except.ok (OrderedMap.ext htree)
  | cons item items ih =>
    obtain ⟨path, node⟩ := item
    obtain ⟨entry, hentry, hentries⟩ := bind_ok_iff.mp hentries
    obtain ⟨later, hlater, hentries⟩ := bind_ok_iff.mp hentries
    cases hentries
    have hordered := tree.ordered
    rw [← htree, List.map_append, List.map_cons, List.pairwise_append] at hordered
    obtain ⟨-, hlaterKeys, hbefore⟩ := hordered
    have hbelow : ∀ e ∈ target.entries, e.1 < path := fun e he =>
      hbefore e.1 (List.mem_map_of_mem he) path List.mem_cons_self
    have hfind : tree.find? path = some node := by
      rw [OrderedMap.find?_iff_mem, ← htree]
      simp
    have hnew : target.find? path = none := by
      refine Option.eq_none_iff_forall_not_mem.mpr ?_
      intro found hfound
      exact (hbelow _ (OrderedMap.find?_iff_mem.mp hfound)).ne rfl
    have hparents : ∀ parent ∈ ancestors path, ∃ made,
        target.find? parent = some (.directory made) := by
      intro parent hmem
      obtain ⟨made, hmade⟩ := h.parents path node hfind parent hmem
      refine ⟨made, OrderedMap.find?_iff_mem.mpr ?_⟩
      have hin := OrderedMap.find?_iff_mem.mp hmade
      rw [← htree] at hin
      obtain hin | hin := List.mem_append.mp hin
      · exact hin
      · have hlt := ancestor_lt hmem
        obtain heq | hin := List.mem_cons.mp hin
        · cases heq
          exact absurd hlt (lt_irrefl _)
        · rw [List.pairwise_cons] at hlaterKeys
          have hgt := hlaterKeys.1 parent (List.mem_map_of_mem hin)
          exact absurd hlt hgt.not_gt
    have hwrite : (target.write path node).entries ++ items = tree.entries := by
      have hwritten : (target.write path node).entries = target.entries ++ [(path, node)] :=
        OrderedMap.insertEntry_last hbelow
      rw [hwritten, List.append_assoc]
      exact htree
    have hcopy : copyEntry host umask tree target entry = .ok (target.write path node) := by
      cases node with
      | other => cases hentry
      | directory mode =>
        cases hentry
        rw [copyEntry, hfind]
        simp only [check, if_true, bind, Except.bind, makeParents_present _ hparents, makeNew, hnew,
          h.modes path mode hfind]
        rfl
      | file mode contents =>
        cases hentry
        simp only [copyEntry, copyInventoryFile, readRegular, hfind, check, bind, Except.bind,
          makeParents_present _ hparents, makeNew, hnew, Option.any_none, BitVec.ofNat_toNat]
        simp [pure, Except.pure]
    rw [copyEntries, hcopy]
    exact ih hwrite hlater

/-- A reproducible tree is copied as it is. -/
theorem copyInventory_reproduces (h : Reproducible umask tree)
    (hentries : inventory host tree = .ok entries) :
    copyInventory host umask tree entries = .ok tree :=
  copyEntries_reproduces h rfl hentries

end Copy

/-! ## Trees that differ in files of the root -/

/-- No directory and nothing unsupported. -/
def FileOrNone : Option Node → Prop
  | none | some (.file _ _) => True
  | some _ => False

/-- The trees are the same but for files with some names in the root. -/
structure AgreeBeside (names : Str → Bool) (tree tree' : Tree) : Prop where
  same : ∀ path, names path = false → tree'.find? path = tree.find? path
  files : ∀ path, names path = true → FileOrNone (tree.find? path) ∧ FileOrNone (tree'.find? path)

section Agree
variable {names : Str → Bool} {umask : Mode} {tree tree' tree'' : Tree} {path : Str} {mode : Mode}

theorem AgreeBeside.symm (h : AgreeBeside names tree tree') : AgreeBeside names tree' tree where
  same path hpath := (h.same path hpath).symm
  files path hpath := (h.files path hpath).symm

theorem AgreeBeside.trans (h : AgreeBeside names tree tree') (h' : AgreeBeside names tree' tree'') :
    AgreeBeside names tree tree'' where
  same path hpath := (h'.same path hpath).trans (h.same path hpath)
  files path hpath := ⟨(h.files path hpath).1, (h'.files path hpath).2⟩

theorem AgreeBeside.directory (h : AgreeBeside names tree tree')
    (hfind : tree.find? path = some (.directory mode)) :
    tree'.find? path = some (.directory mode) := by
  cases hname : names path with
  | false => rw [h.same path hname, hfind]
  | true =>
    have hfile := (h.files path hname).1
    rw [hfind] at hfile
    cases hfile

theorem AgreeBeside.reproducible (h : AgreeBeside names tree tree')
    (hroot : ∀ path, names path = true → slash ∉ path) (hr : Reproducible umask tree) :
    Reproducible umask tree' := by
  have hback (path : Str) (mode : Mode) : tree'.find? path = some (.directory mode) →
      tree.find? path = some (.directory mode) := h.symm.directory
  refine ⟨fun path hother => ?_, fun path node hfind parent hmem => ?_, fun path mode hfind => ?_⟩
  · cases hname : names path with
    | false => exact hr.supported path (h.same path hname ▸ hother)
    | true =>
      have hfile := (h.files path hname).2
      rw [hother] at hfile
      cases hfile
  · cases hname : names path with
    | false =>
      obtain ⟨mode, hmode⟩ := hr.parents path node (h.same path hname ▸ hfind) parent hmem
      exact ⟨mode, h.directory hmode⟩
    | true =>
      rw [ancestors_of_noSlash (hroot path hname)] at hmem
      cases hmem
  · exact hr.modes path mode (hback path mode hfind)

end Agree

end Pomodorough.Restore.Copies
