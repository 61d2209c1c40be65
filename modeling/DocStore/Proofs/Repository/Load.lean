import Mathlib
import DocStore.Proofs.Repository.Reopen

/-!
# What opening a directory loads

Opening a cabinet reads the entries of its directory in order and keeps every document a file
holds: a regular file whose extension is `json`, whose stem reads as an identifier in any of its
four spellings and either case, and whose content is a document with that identifier. A later
file of an identifier replaces an earlier one. Nothing is checked across files.

So the cabinet is a map from identifiers (`Loaded.ids`), and each document came from a file of
the directory (`Loaded.read`). It is a keyed map, and each document lies in the file
`<id>.json` that a save writes and a delete removes, only when the directory was written that
way: when files of different identifiers hold different keys (`Loaded.keyed`), and when each
document file is named by its identifier's hyphenated lower-case form (`Loaded.canonical`). A
directory with two files of one key, or a file named `<ID>.json` in upper case, opens all the
same.

* `load?_eq_some`: what reading one entry takes from it.
* `Reads`: a step of the loading fold, stated without its text, and `foldl_ids`, `mem_foldl`,
  `foldl_every`: what the fold keeps.
* `open_loads`: what every opened cabinet holds.
-/

namespace DocStore.Cabinet

/-- An entry read as a document is a `.json` file whose stem reads as the document's identifier
and whose content reads as the document. -/
theorem load?_eq_some {name : String} {node : Node} {d : Document} (h : load? name node = some d) :
    ∃ stem content, node = .file content ∧ stemAndExtension name = (stem, some "json") ∧
      Uuid.parse? stem = some d.id ∧ Document.ofText content = some d := by
  unfold load? at h
  split at h
  · rename_i content stem hse
    obtain ⟨id, hid, h⟩ := Option.bind_eq_some_iff.mp h
    obtain ⟨e, he, h⟩ := Option.bind_eq_some_iff.mp h
    split at h
    · rename_i heq
      cases h
      exact ⟨stem, content, rfl, hse, heq ▸ hid, he⟩
    · cases h
  · cases h

/-- One step of the loading fold: it puts the document an entry holds, or leaves the shelf. -/
def Reads (F : Shelf → String × Node → Shelf) : Prop :=
  ∀ s e, (∃ d, load? e.1 e.2 = some d ∧ F s e = s.put d) ∨ (load? e.1 e.2 = none ∧ F s e = s)

/-- An identifier on the shelf stays there through a put. -/
theorem exists_id_put {s : Shelf} {i : Uuid} (h : ∃ d ∈ s.docs, d.id = i) (d' : Document) :
    ∃ d ∈ (s.put d').docs, d.id = i := by
  obtain ⟨d, hd, rfl⟩ := h
  by_cases hid : d.id = d'.id
  · exact ⟨d', Shelf.mem_put.mpr (.inl rfl), hid.symm⟩
  · exact ⟨d, Shelf.mem_put.mpr (.inr ⟨hd, hid⟩), rfl⟩

section Fold

variable {F : Shelf → String × Node → Shelf} (hF : Reads F)
include hF

/-- The fold keeps the identifiers of the shelf distinct. -/
theorem foldl_ids (entries : List (String × Node)) {s : Shelf}
    (h : (s.docs.map (·.id)).Nodup) : ((entries.foldl F s).docs.map (·.id)).Nodup := by
  induction entries generalizing s with
  | nil => exact h
  | cons e entries ih =>
    rw [List.foldl_cons]
    apply ih
    rcases hF s e with ⟨d, -, he⟩ | ⟨-, he⟩
    · rw [he]
      exact Shelf.ids_put h
    · rwa [he]

/-- A document after the fold was on the shelf before, or an entry holds it. -/
theorem mem_foldl (entries : List (String × Node)) {s : Shelf} {d : Document}
    (hd : d ∈ (entries.foldl F s).docs) : d ∈ s.docs ∨ ∃ e ∈ entries, load? e.1 e.2 = some d := by
  induction entries generalizing s with
  | nil => exact .inl hd
  | cons e entries ih =>
    rw [List.foldl_cons] at hd
    rcases ih hd with hd | ⟨e', he', hl⟩
    · -- the step put one document, or none
      rcases hF s e with ⟨d', hl, hs⟩ | ⟨-, hs⟩
      · rw [hs, Shelf.mem_put] at hd
        rcases hd with rfl | ⟨hd, -⟩
        · exact .inr ⟨e, List.mem_cons_self, hl⟩
        · exact .inl hd
      · rw [hs] at hd
        exact .inl hd
    · exact .inr ⟨e', List.mem_cons_of_mem e he', hl⟩

/-- An identifier on the shelf stays there through the fold. -/
theorem exists_id_foldl (entries : List (String × Node)) {s : Shelf} {i : Uuid}
    (h : ∃ d ∈ s.docs, d.id = i) : ∃ d ∈ (entries.foldl F s).docs, d.id = i := by
  induction entries generalizing s with
  | nil => exact h
  | cons e entries ih =>
    rw [List.foldl_cons]
    apply ih
    rcases hF s e with ⟨d', -, hs⟩ | ⟨-, hs⟩
    · rw [hs]
      exact exists_id_put h d'
    · rwa [hs]

omit hF in
/-- Every document an entry holds has its identifier on the shelf after the fold. -/
theorem foldl_every (hF : Reads F) (entries : List (String × Node)) (s : Shelf) {e : String × Node}
    {x : Document} (he : e ∈ entries) (hl : load? e.1 e.2 = some x) :
    ∃ d ∈ (entries.foldl F s).docs, d.id = x.id := by
  induction entries generalizing s with
  | nil => cases he
  | cons e' entries ih =>
    rw [List.foldl_cons]
    rcases List.mem_cons.mp he with rfl | he
    · -- the entry puts `x`, and its identifier stays
      apply exists_id_foldl hF
      rcases hF s e with ⟨d', hl', hs⟩ | ⟨hl', -⟩
      · rw [hl] at hl'
        cases hl'
        rw [hs]
        exact ⟨x, Shelf.mem_put.mpr (.inl rfl), rfl⟩
      · rw [hl] at hl'
        cases hl'
    · exact ih _ he

end Fold

/-- An opened cabinet is the fold of a reading step over the entries of its directory. -/
theorem open_ok {folder : Folder} {start names : List String} {c : Cabinet}
    (hopen : Cabinet.open folder start names = .ok c) :
    ∃ F entries, Reads F ∧ c.folder.list c.dir = .ok entries ∧
      c.shelf = entries.foldl F Shelf.empty := by
  obtain ⟨-, -, entries, hlist, hshelf⟩ := open_eq_ok hopen
  refine ⟨_, entries, fun s e => ?_, hlist, hshelf⟩
  cases hl : load? e.1 e.2 with
  | none => exact .inr ⟨rfl, rfl⟩
  | some d => exact .inl ⟨d, rfl, rfl⟩

/-- What an opened cabinet holds, read from the entries of its directory. -/
structure Loaded (c : Cabinet) (entries : List (String × Node)) : Prop where
  /-- The entries are the directory's. -/
  listed : c.folder.list c.dir = .ok entries
  /-- No identifier is held twice: each document is kept under its own identifier. -/
  ids : (c.shelf.docs.map (·.id)).Nodup
  /-- Each document was read from a `.json` file of the directory whose stem reads, in some
  spelling, as its identifier. -/
  read (d : Document) (hd : d ∈ c.shelf.docs) :
    ∃ name stem content, (name, .file content) ∈ entries ∧
      stemAndExtension name = (stem, some "json") ∧ Uuid.parse? stem = some d.id ∧
      Document.ofText content = some d
  /-- Every document a file holds has its identifier loaded. -/
  every (e : String × Node) (x : Document) (he : e ∈ entries) (hl : load? e.1 e.2 = some x) :
    ∃ d ∈ c.shelf.docs, d.id = x.id
  /-- When files of different identifiers hold different keys, no key is held twice. -/
  keyed (hx : ∀ e ∈ entries, ∀ e' ∈ entries, ∀ x x', load? e.1 e.2 = some x →
    load? e'.1 e'.2 = some x' → x.xid = x'.xid → x.id = x'.id) : c.shelf.Keyed
  /-- When each document file is named by its identifier's hyphenated lower-case form, each
  document lies in the file `<id>.json` of the directory. -/
  canonical (hn : ∀ e ∈ entries, ∀ x, load? e.1 e.2 = some x → e.1 = x.id.render ++ ".json")
    (d : Document) (hd : d ∈ c.shelf.docs) :
    ∃ content, (d.id.render ++ ".json", .file content) ∈ entries ∧ Document.ofText content = some d

/-- Every cabinet that opening a directory gives holds what its directory's entries hold, as
`Loaded` says. -/
theorem open_loads {folder : Folder} {start names : List String} {c : Cabinet}
    (hopen : Cabinet.open folder start names = .ok c) : ∃ entries, Loaded c entries := by
  obtain ⟨F, entries, hF, hlist, hshelf⟩ := open_ok hopen
  -- every document comes from an entry, since the fold starts from the empty shelf
  have hfrom : ∀ d ∈ c.shelf.docs, ∃ e ∈ entries, load? e.1 e.2 = some d := by
    intro d hd
    rw [hshelf] at hd
    rcases mem_foldl hF entries hd with hd | h
    · cases hd
    · exact h
  have hids : (c.shelf.docs.map (·.id)).Nodup := by
    rw [hshelf]
    exact foldl_ids hF entries List.nodup_nil
  refine ⟨entries, ⟨hlist, hids, fun d hd => ?_, fun e x he hl => ?_, fun hx => ⟨hids, ?_⟩,
    fun hn d hd => ?_⟩⟩
  · obtain ⟨⟨name, node⟩, he, hl⟩ := hfrom d hd
    obtain ⟨stem, content, rfl, hse, hid, hd'⟩ := load?_eq_some hl
    exact ⟨name, stem, content, he, hse, hid, hd'⟩
  · rw [hshelf]
    exact foldl_every hF entries Shelf.empty he hl
  · -- two documents with one key come from files with one identifier, so are one document
    refine List.Nodup.map_on (fun d hd d' hd' hxd => ?_) (List.Nodup.of_map _ hids)
    obtain ⟨e, he, hl⟩ := hfrom d hd
    obtain ⟨e', he', hl'⟩ := hfrom d' hd'
    exact List.inj_on_of_nodup_map hids hd hd' (hx e he e' he' d d' hl hl' hxd)
  · obtain ⟨⟨name, node⟩, he, hl⟩ := hfrom d hd
    obtain ⟨stem, content, rfl, -, -, hd'⟩ := load?_eq_some hl
    have hname : name = d.id.render ++ ".json" := hn _ he d hl
    exact ⟨content, hname ▸ he, hd'⟩

/-- A directory holding the file of a report under its identifier and a temporary file a failed
save left opens with the report alone, and the cabinet holds what its directory holds. -/
theorem open_loads_report :
    ∃ c, Cabinet.open
      ⟨[(["data"], .dir),
        (["data", "00000000-0000-0000-0000-000000000001.json"],
          .file "\x7b\n  \"id\": \"00000000-0000-0000-0000-000000000001\",\n  \"xid\": \"report\",\n  \"name\": \"Report\",\n  \"publicData\": false,\n  \"readPermission\": \"staff\",\n  \"editPermission\": \"staff\",\n  \"jsonData\": true\n\x7d"),
        (["data", "00000000-0000-0000-0000-000000000001.00000000000000000000000000000002.tmp"],
          .file "\x7b\n  \"id\"")]⟩ [] ["data"] = .ok c ∧
      c.shelf.docs = [⟨⟨1⟩, "report", ⟨"Report", false, ⟨["staff"], List.pairwise_singleton _ _⟩,
        ⟨["staff"], List.pairwise_singleton _ _⟩⟩, some (.bool true)⟩] ∧
      ∃ entries, Loaded c entries := by
  refine ⟨?c, ?hopen, ?docs, open_loads ?hopen⟩
  case hopen =>
    cbv
    rfl
  case docs => rfl

end DocStore.Cabinet
