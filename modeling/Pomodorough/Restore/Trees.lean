import Mathlib.Data.List.DropRight
import Pomodorough.Library.Fallible
import Pomodorough.Library.OrderedMaps
import Pomodorough.Library.TextBytes

/-! # Directory trees and their inventories

`restore_drill.py`, up to the copy of a directory. A directory is what the tool
can see of it: its entries by their path from the root, in the order of paths,
in which the tool itself puts them before it looks at them. -/
namespace Pomodorough.Restore.Trees
open Pomodorough.Library.Fallible Pomodorough.Library.OrderedMaps
open Pomodorough.Library.JsonText Pomodorough.Library.TextBytes

/-- An exception. The path at the end of a message is left out. -/
inductive Failure where
  | valueError (message : String)
  | runtimeError (message : String)
  | fileNotFound
  | fileExists
  | osError
  deriving DecidableEq

/-- `stat.S_IMODE`: the permissions with the set-ID and sticky bits. -/
abbrev Mode := BitVec 12

/-- `other` is a symbolic link, a device, a pipe or a socket. -/
inductive Node where
  | file (mode : Mode) (contents : Bytes)
  | directory (mode : Mode)
  | other
  deriving DecidableEq

abbrev Tree := OrderedMap Str Node

/-- What the tool computes with: digests as hexadecimal text, an HMAC under a
key in hexadecimal, doubles, and the `generation` a read-only SQLite connection
finds in a database file of a directory (`none` for no row or no integer). -/
structure Host where
  sha256 : Bytes → Str
  hmacSha256 : Str → Bytes → Str
  parseFloat : Str → Double
  generationRow : Tree → Str → Except Failure (Option Int)

/-! ## Paths -/

abbrev slash : Nat := 0x2f

/-- The directories above a path, from the root down. -/
def ancestors : Str → List Str
  | [] => []
  | c :: path =>
    if c = slash then [] :: (ancestors path).map (c :: ·) else (ancestors path).map (c :: ·)

/-- `Path.name`. -/
def name (path : Str) : Str := path.rtakeWhile (· ≠ slash)

/-- The entries of the root directory itself. -/
def children (tree : Tree) : List (Str × Node) := tree.entries.filter fun e => slash ∉ e.1

/-- The names in a directory below the root. -/
def childNames (tree : Tree) (directory : Str) : List Str :=
  tree.entries.filterMap fun e =>
    ((directory ++ [slash]).isPrefixOf? e.1).bind fun child =>
      if slash ∈ child then none else some child

/-! ## JSON values in Python -/

def MAX_SAFE_REVISION : Nat := 9007199254740991

/-- `value == n`. -/
def equalsInt : Json → Int → Bool
  | .int m, n => m == n
  | .bool b, n => (if b then 1 else 0) == n
  | .float d, n => d.integer == some n
  | _, _ => false

def equalsStr : Json → Str → Bool
  | .str s, t => s == t
  | _, _ => false

/-- `valid_generation`. -/
def validGeneration : Json → Option Nat
  | .int n => if 1 ≤ n ∧ n ≤ MAX_SAFE_REVISION then some n.toNat else none
  | _ => none

/-- `valid_positive_integer`. -/
def validPositiveInteger : Json → Option Nat
  | .int n => if 1 ≤ n then some n.toNat else none
  | _ => none

def isHexDigit (c : Nat) : Bool := isDigit c || (0x61 ≤ c && c ≤ 0x66)

/-- `[0-9a-f]{64}`. -/
def isDigest (s : Str) : Bool := s.length == 64 && s.all isHexDigit

/-- `valid_hex`. -/
def validHex : Json → Option Str
  | .str s => if isDigest s then some s else none
  | _ => none

/-- `value[key]`, of an object that has the key. -/
def field (fields : List (Str × Json)) (key : String) : Json :=
  (fields.lookup (text key)).getD .null

/-- `set(value) == {...}`. -/
def hasKeys (fields : List (Str × Json)) (keys : List String) : Bool :=
  fields.all (fun e => keys.any fun key => text key == e.1) &&
    keys.all fun key => fields.any fun e => e.1 == text key

def strictJsonBytes (host : Host) (contents : Bytes) : Except Failure (List (Str × Json)) :=
  match loads host.parseFloat contents with
  | none => .error (.valueError "invalid JSON")
  | some (.obj fields) => .ok fields
  | some _ => .error (.valueError "JSON object required")

/-- `read_regular`: the contents of a file and its mode. -/
def readRegular (tree : Tree) (path : Str) (maximum : Option Nat) : Except Failure (Bytes × Mode) :=
  match tree.find? path with
  | none => .error .fileNotFound
  | some (.file mode contents) =>
    if maximum.any (· < contents.length) then .error (.valueError "file exceeds safe size")
    else .ok (contents, mode)
  | some _ => .error (.valueError "regular file required")

def strictJson (host : Host) (tree : Tree) (path : Str) : Except Failure (List (Str × Json)) := do
  let (contents, _) ← readRegular tree path (some 65536)
  strictJsonBytes host contents

/-! ## Inventories -/

inductive Entry where
  | file (path : Str) (mode size : Nat) (sha256 : Str)
  | directory (path : Str) (mode : Nat)
  deriving DecidableEq

def Entry.path : Entry → Str
  | .file path _ _ _ => path
  | .directory path _ => path

def Entry.mode : Entry → Nat
  | .file _ mode _ _ => mode
  | .directory _ mode => mode

def Entry.isFile : Entry → Bool
  | .file .. => true
  | .directory .. => false

def Entry.toJson : Entry → Json
  | .file path mode size sha256 => .obj [(text "path", .str path), (text "mode", .int mode),
      (text "type", .str (text "file")), (text "size", .int size), (text "sha256", .str sha256)]
  | .directory path mode => .obj [(text "path", .str path), (text "mode", .int mode),
      (text "type", .str (text "directory"))]

def inventoryJson (entries : List Entry) : Json := .arr (entries.map Entry.toJson)

def inventoryEntry (host : Host) : Str × Node → Except Failure Entry
  | (path, .directory mode) => .ok (.directory path mode.toNat)
  | (path, .file mode contents) =>
    .ok (.file path mode.toNat contents.length (host.sha256 contents))
  | (_, .other) => .error (.valueError "unsupported snapshot entry")

def inventory (host : Host) (tree : Tree) : Except Failure (List Entry) :=
  mapAll (inventoryEntry host) tree.entries

def validInventoryPath : Json → Option Str
  | .str path =>
    if path ≠ [] ∧ path.head? ≠ some slash ∧
        ∀ part ∈ path.splitOn slash, part ≠ [] ∧ part ≠ text "." ∧ part ≠ text ".." then some path
    else none
  | _ => none

/-- `isinstance(value, int)`, which a bool is. -/
def intOrBool : Json → Option Int
  | .int n => some n
  | .bool b => some (if b then 1 else 0)
  | _ => none

def validMode (value : Json) : Option Nat :=
  (intOrBool value).bind fun n => if 0 ≤ n ∧ n ≤ 0o777 then some n.toNat else none

/-- `valid_file_inventory`: the size and the digest of an entry. -/
def validFileInventory (fields : List (Str × Json)) : Option (Nat × Str) :=
  match field fields "size", validHex (field fields "sha256") with
  | .int size, some sha256 => if 0 ≤ size then some (size.toNat, sha256) else none
  | _, _ => none

/-- One step of the loop in `validate_inventory`. -/
def validateEntry (previous : Str) (entry : Json) : Except Failure Entry :=
  match entry with
  | .obj fields =>
    match validInventoryPath (field fields "path") with
    | none => .error (.valueError "snapshot inventory path is invalid")
    | some path => do
      let isFile := equalsStr (field fields "type") (text "file")
      let expected := ["path", "mode", "type"] ++ if isFile then ["size", "sha256"] else []
      check (hasKeys fields expected = true ∧ previous < path)
        (.valueError "snapshot inventory schema or ordering is invalid")
      match validMode (field fields "mode") with
      | none => .error (.valueError "snapshot inventory mode is invalid")
      | some mode =>
        if isFile then
          match validFileInventory fields with
          | none => .error (.valueError "snapshot file inventory is invalid")
          | some (size, sha256) => .ok (.file path mode size sha256)
        else if equalsStr (field fields "type") (text "directory") then .ok (.directory path mode)
        else .error (.valueError "snapshot inventory type is invalid")
  | _ => .error (.valueError "snapshot inventory path is invalid")

def validateEntries (previous : Str) : List Json → Except Failure (List Entry)
  | [] => .ok []
  | item :: items => do
    let entry ← validateEntry previous item
    let entries ← validateEntries entry.path items
    .ok (entry :: entries)

def validateInventory : Json → Except Failure (List Entry)
  | .arr items => validateEntries [] items
  | _ => .error (.valueError "snapshot inventory must be a list")

/-! ## Copies -/

/-- What `mkdir` makes of the mode it is given. -/
def createdMode (umask : Mode) (mode : Nat) : Mode := BitVec.ofNat 12 mode &&& 0o1777 &&& ~~~umask

/-- `mkdir(parents=True)` above a path; the directory right above it gets its
own mode. -/
def makeParents (umask : Mode) (mode : Nat) (tree : Tree) : List Str → Except Failure Tree
  | [] => .ok tree
  | path :: rest =>
    match tree.find? path with
    | some (.directory _) => makeParents umask mode tree rest
    | some _ => .error .osError
    | none =>
      makeParents umask mode
        (tree.write path (.directory (createdMode umask (if rest = [] then mode else 0o777)))) rest

def makeNew (tree : Tree) (path : Str) (node : Node) : Except Failure Tree :=
  if (tree.find? path).isSome then .error .fileExists else .ok (tree.write path node)

/-- `copy_inventory_file`. -/
def copyInventoryFile (host : Host) (source target : Tree) (path : Str) (mode size : Nat)
    (sha256 : Str) : Except Failure Tree := do
  let (contents, sourceMode) ← readRegular source path none
  check (sourceMode.toNat = mode ∧ contents.length = size)
    (.valueError "source changed during copy")
  let target ← makeNew target path (.file (BitVec.ofNat 12 mode) contents)
  check (host.sha256 contents = sha256) (.valueError "source changed during copy")
  pure target

def copyEntry (host : Host) (umask : Mode) (source target : Tree) : Entry → Except Failure Tree
  | .directory path mode =>
    match source.find? path with
    | some (.directory sourceMode) => do
      check (sourceMode.toNat = mode) (.valueError "source changed during copy")
      let target ← makeParents umask 0o777 target (ancestors path)
      makeNew target path (.directory (createdMode umask mode))
    | some _ => .error (.valueError "source changed during copy")
    | none => .error .fileNotFound
  | .file path mode size sha256 => do
    let target ← makeParents umask 0o700 target (ancestors path)
    copyInventoryFile host source target path mode size sha256

def copyEntries (host : Host) (umask : Mode) (source target : Tree) :
    List Entry → Except Failure Tree
  | [] => .ok target
  | entry :: entries => do
    let target ← copyEntry host umask source target entry
    copyEntries host umask source target entries

/-- `copy_inventory`, into a new directory. -/
def copyInventory (host : Host) (umask : Mode) (source : Tree) (entries : List Entry) :
    Except Failure Tree :=
  copyEntries host umask source .empty entries

/-! ## The names in a directory -/

section Names
variable {tree : Tree}

theorem mem_children {name : Str} :
    name ∈ (children tree).map Prod.fst ↔ slash ∉ name ∧ tree.find? name ≠ none := by
  constructor
  · intro hmem
    obtain ⟨⟨path, node⟩, he, rfl⟩ := List.mem_map.mp hmem
    obtain ⟨he, hslash⟩ := List.mem_filter.mp he
    rw [OrderedMap.find?_iff_mem.mpr he]
    exact ⟨by simpa using hslash, Option.some_ne_none node⟩
  · rintro ⟨hslash, hsome⟩
    obtain ⟨node, hnode⟩ := Option.ne_none_iff_exists'.mp hsome
    refine List.mem_map.mpr ⟨(name, node), List.mem_filter.mpr ⟨?_, by simpa using hslash⟩, rfl⟩
    exact OrderedMap.find?_iff_mem.mp hnode

theorem children_names_nodup : ((children tree).map Prod.fst).Nodup :=
  tree.nodup.sublist ((List.filter_sublist (l := tree.entries)).map Prod.fst)

end Names

/-! ## An inventory is its tree -/

section Inventory
variable {host : Host} {tree other : Tree} {entries : List Entry} {item : Str × Node} {entry : Entry}

theorem inventoryEntry_path (h : inventoryEntry host item = .ok entry) : entry.path = item.1 := by
  obtain ⟨path, node⟩ := item
  cases node with
  | other => cases h
  | file mode contents =>
    cases h
    rfl
  | directory mode =>
    cases h
    rfl

theorem inventory_paths (h : inventory host tree = .ok entries) :
    entries.map Entry.path = tree.entries.map Prod.fst :=
  mapAll_map h fun _ _ hentry => inventoryEntry_path hentry

theorem inventory_ordered (h : inventory host tree = .ok entries) :
    (entries.map Entry.path).Pairwise (· < ·) := by
  rw [inventory_paths h]
  exact tree.ordered

theorem mem_inventory (h : inventory host tree = .ok entries) :
    entry ∈ entries ↔ ∃ item ∈ tree.entries, inventoryEntry host item = .ok entry := mem_mapAll h

theorem inventoryEntry_injective (hsha : Function.Injective host.sha256) {item' : Str × Node}
    (h : inventoryEntry host item = .ok entry) (h' : inventoryEntry host item' = .ok entry) :
    item = item' := by
  obtain ⟨path, node⟩ := item
  obtain ⟨path', node'⟩ := item'
  cases node with
  | other => cases h
  | file mode contents =>
    cases h
    cases node' with
    | other => cases h'
    | directory mode' => cases h'
    | file mode' contents' =>
      simp only [inventoryEntry, Except.ok.injEq, Entry.file.injEq] at h'
      obtain ⟨rfl, hmode, -, hdigest⟩ := h'
      rw [BitVec.eq_of_toNat_eq hmode, hsha hdigest]
  | directory mode =>
    cases h
    cases node' with
    | other => cases h'
    | file mode' contents' => cases h'
    | directory mode' =>
      simp only [inventoryEntry, Except.ok.injEq, Entry.directory.injEq] at h'
      obtain ⟨rfl, hmode⟩ := h'
      rw [BitVec.eq_of_toNat_eq hmode]

/-- Without collisions, a recorded inventory is of one tree only. -/
theorem inventory_injective (hsha : Function.Injective host.sha256)
    (h : inventory host tree = .ok entries) (h' : inventory host other = .ok entries) :
    tree = other :=
  OrderedMap.ext (mapAll_injective (fun _ _ _ => inventoryEntry_injective hsha) h h')

end Inventory

end Pomodorough.Restore.Trees
