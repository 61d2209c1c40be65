import DocStore.Proofs.Path.Edit
import DocStore.Proofs.Store.Calls
import DocStore.Proofs.Store.Access

/-!
# Path texts

A path is written as its names joined by dots. Splitting a text at every dot and joining the
parts again are inverse: every text is the text of the path it parses to, and every non-empty
list of names without a dot is the list of names of the path its dotted text parses to. A path
has at least one name, so it always has a last name and the names before it.

The store reports a missing node by the path it was asked for: it parses the caller's text and
writes the path back, which gives the same text.

Two texts joined by a dot parse to the names of the first, then those of the second, so a walk
along the joined path is the walk along the first path continued from the node it reaches. A
read of the store at the joined path is therefore the read at the first path, narrowed further.

* `Text.not_mem_split`: no part of a split holds the separator.
* `Path.render_eq_intercalate`: a path's text is its names joined by dots.
* `Path.keys_parse_intercalate`: a dotted text of names without dots parses to those names.
* `Store.get_pathNotFound`, `Store.write_pathNotFound`, `Store.delete_pathNotFound`: the path an
  error names is the caller's path text.
* `path_text_rules`: all of it, for every text, every list of names and every store.
* `Path.keys_parse_append_dot`, `Path.resolve_parse_append_dot`: the names and the walk of two
  texts joined by a dot.
* `Store.get_eq_narrow`, `Store.getPublic_eq_narrow`: a read at a path is the read of the whole
  document, narrowed.
* `joined_path_rules`: walks and reads at a joined path, for every value, text and store.
-/

namespace DocStore

namespace Text

/-- No part of a split holds the separator. -/
theorem not_mem_split (sep : Char) (cs : List Char) :
    ∀ part ∈ (split sep cs).1 :: (split sep cs).2, sep ∉ part := by
  induction cs with
  | nil => simp [split]
  | cons c cs ih =>
    by_cases h : c = sep
    · -- the separator ends an empty first part; the parts after it are those of the tail
      simp only [split, h, if_true, List.mem_cons] at ih ⊢
      rintro part (rfl | rfl | hp)
      · simp
      · exact ih _ (.inl rfl)
      · exact ih part (.inr hp)
    · simp only [split, h, if_false, List.mem_cons] at ih ⊢
      rintro part (rfl | hp)
      · simpa [Ne.symm h] using ih _ (.inl rfl)
      · exact ih part (.inr hp)

/-- A join is the parts with the separator between each two. -/
theorem join_eq_intercalate (sep : Char) (first : List Char) (rest : List (List Char)) :
    join sep first rest = [sep].intercalate (first :: rest) := by
  induction rest generalizing first with
  | nil => simp [join]
  | cons q rest ih =>
    rw [List.intercalate_cons_cons, ← ih]
    simp [join]

end Text

namespace Path

/-- A path has at least one name. -/
theorem keys_ne_nil (p : Path) : p.keys ≠ [] := List.cons_ne_nil _ _

/-- No name of a parsed path holds a dot. -/
theorem not_mem_keys_parse (s : String) : ∀ k ∈ (parse s).keys, '.' ∉ k.toList := by
  intro k hk
  have h := Text.not_mem_split '.' s.toList
  simp only [keys, parse, List.mem_cons, List.mem_map] at hk
  rcases hk with rfl | ⟨q, hq, rfl⟩
  · simpa using h _ List.mem_cons_self
  · simpa using h q (List.mem_cons_of_mem _ hq)

/-- A path's text is its names joined by dots. -/
theorem render_eq_intercalate (p : Path) : p.render = String.intercalate "." p.keys := by
  apply String.ext
  rw [render, String.toList_ofList, Text.join_eq_intercalate, String.toList_intercalate]
  rfl

/-- A path whose names hold no dot is the path its text parses to. -/
theorem parse_render {p : Path} (hp : ∀ k ∈ p.keys, '.' ∉ k.toList) : parse p.render = p := by
  have hrest : ∀ q ∈ p.rest.map String.toList, '.' ∉ q := by
    intro q hq
    obtain ⟨k, hk, rfl⟩ := List.mem_map.mp hq
    exact hp k (List.mem_cons_of_mem _ hk)
  have hsplit := Text.split_join '.' p.first.toList (p.rest.map String.toList)
    (hp p.first List.mem_cons_self) hrest
  simp only [parse, render, String.toList_ofList, hsplit, String.ofList_toList, List.map_map]
  have h : (String.ofList ∘ String.toList) = (id : String → String) := by
    funext x; simp
  rw [h, List.map_id]

/-- A dotted text of names, none holding a dot, parses to those names. -/
theorem keys_parse_intercalate {ks : List String} (hne : ks ≠ [])
    (hdot : ∀ k ∈ ks, '.' ∉ k.toList) : (parse (String.intercalate "." ks)).keys = ks := by
  obtain ⟨k, ks', rfl⟩ := List.exists_cons_of_ne_nil hne
  have hkeys : (⟨k, ks'⟩ : Path).keys = k :: ks' := rfl
  rw [← hkeys, ← render_eq_intercalate, parse_render (by rwa [hkeys])]

/-- The path of two texts joined by a dot has the names of the first, then those of the second. -/
theorem keys_parse_append_dot (s t : String) :
    (parse (s ++ "." ++ t)).keys = (parse s).keys ++ (parse t).keys := by
  have htext : (s ++ "." ++ t).toList = s.toList ++ '.' :: t.toList := by simp
  simp only [keys, parse, htext, Text.split_append_sep, List.map_append, List.map_cons,
    List.cons_append]

/-- Following the path of two texts joined by a dot is following the path of the first, then
that of the second from the node reached. -/
theorem resolve_parse_append_dot (s t : String) (root : Json) :
    (parse (s ++ "." ++ t)).resolve root = ((parse s).resolve root).bind (parse t).resolve := by
  rw [resolve, keys_parse_append_dot, Json.resolve_append]
  rfl

end Path

namespace Store

variable {ρ : Type} [Repository ρ] {r : ρ} {p : Principal}

/-- A node missing under a path is reported by the path text asked for. -/
theorem narrow_pathNotFound {d : Document} {path : Option String} {x t : String}
    (h : narrow d path = .error (.pathNotFound x t)) : path = some t := by
  cases path with
  | none => cases h
  | some s =>
    simp only [narrow] at h
    cases hr : d.payload.bind (Path.parse s).resolve with
    | some node => simp [hr] at h
    | none =>
      simp only [hr, Except.error.injEq, StoreError.pathNotFound.injEq] at h
      rw [← h.2, Path.render_parse]

/-- A read that fails for a missing node reports the path text asked for. -/
theorem get_pathNotFound {x x' t : String} {path : Option String}
    (h : get r p x path = .error (.pathNotFound x' t)) : path = some t := by
  cases hb : Repository.byXid r x with
  | none => rw [get_of_byXid_none hb] at h; cases h
  | some d =>
    rw [get_of_byXid hb] at h
    split at h
    · exact narrow_pathNotFound h
    · cases h

/-- A public read that fails for a missing node reports the path text asked for. -/
theorem getPublic_pathNotFound {x x' t : String} {path : Option String}
    (h : getPublic r x path = .error (.pathNotFound x' t)) : path = some t := by
  cases hb : Repository.byXid r x with
  | none => rw [getPublic_of_byXid_none hb] at h; cases h
  | some d =>
    rw [getPublic_of_byXid hb] at h
    split at h
    · exact narrow_pathNotFound h
    · cases h

/-- The first checks of a write never fail for a missing node. -/
theorem target_ne_pathNotFound {req : Request} {fresh : Uuid} {co : Bool} (x t : String) :
    target r p req fresh co ≠ .error (.pathNotFound x t) := by
  unfold target
  split
  · split
    · nofun
    · split <;> nofun
  · split <;> nofun

/-- A payload that cannot be edited is reported by the request's path text. -/
theorem payloadAfter_pathNotFound {d : Document} {req : Request} {created : Bool} {x t : String}
    (h : payloadAfter d req created = .error (.pathNotFound x t)) : req.path = some t := by
  unfold payloadAfter at h
  split at h
  · cases h
  · split at h
    · cases h
    · rename_i s v hpath hdata
      split at h
      · cases h
      · cases h
        rw [hpath, Path.render_parse]
    · cases h

/-- The checks of a write fail for a missing node only under the request's path text. -/
theorem draft_pathNotFound {req : Request} {fresh : Uuid} {co : Bool} {x t : String}
    (h : draft r p req fresh co = .error (.pathNotFound x t)) : req.path = some t := by
  cases ht : target r p req fresh co with
  | error e =>
    rw [draft_of_target_error ht] at h
    cases h
    exact absurd ht (target_ne_pathNotFound x t)
  | ok dc =>
    obtain ⟨d, created⟩ := dc
    unfold draft at h
    rw [ht] at h
    simp only [except_ok_bind] at h
    cases hp : payloadAfter ⟨d.id, d.xid, req.metadata, d.payload⟩ req created with
    | error e =>
      rw [hp] at h
      cases h
      exact payloadAfter_pathNotFound hp
    | ok pl =>
      rw [hp] at h
      simp only [except_ok_bind] at h
      -- the two guards left fail with a validation error
      split at h
      · cases h
      · split at h <;> cases h

/-- A write that fails for a missing node reports the request's path text. -/
theorem write_pathNotFound {s : Store ρ} {req : Request} {fresh : Uuid} {co : Bool}
    {x t : String} (h : (s.call (write p req fresh co)).1 = .error (.pathNotFound x t)) :
    req.path = some t := by
  rw [call_write] at h
  cases hd : draft s.repo p req fresh co with
  | error e =>
    rw [hd] at h
    cases h
    exact draft_pathNotFound hd
  | ok dr =>
    -- a failed save answers as a key taken or an internal error
    cases hs : Repository.save s.repo dr.doc with
    | ok r' => simp [hd, hs] at h
    | error e => cases e <;> simp [hd, hs] at h

/-- The checks of a delete fail for a missing node only under the caller's path text. -/
theorem removal_pathNotFound {x x' t : String} {path : Option String}
    (h : removal r p x path = .error (.pathNotFound x' t)) : path = some t := by
  unfold removal fetch at h
  cases hb : Repository.byXid r x with
  | none => rw [hb] at h; cases h
  | some d =>
    rw [hb] at h
    simp only [except_ok_bind] at h
    split at h
    · cases h
    · cases path with
      | none => cases h
      | some s =>
        simp only at h
        split at h
        · cases h
          rw [Path.render_parse]
        · split at h <;> cases h

/-- A delete that fails for a missing node reports the caller's path text. -/
theorem delete_pathNotFound {s : Store ρ} {x x' t : String} {path initiator : Option String}
    (h : (s.call (delete p x path initiator)).1 = .error (.pathNotFound x' t)) :
    path = some t := by
  rw [call_delete] at h
  cases hr : removal s.repo p x path with
  | error e =>
    rw [hr] at h
    cases h
    exact removal_pathNotFound hr
  | ok rm =>
    cases rm with
    | whole d => cases hd : Repository.delete s.repo d.id <;> simp [hr, hd] at h
    | member n => cases hs : Repository.save s.repo n <;> simp [hr, hs] at h

/-- Narrowing to a path answers exactly when the payload has a node there, which becomes the
payload. -/
theorem narrow_some_eq_ok {d a : Document} {s : String} :
    narrow d (some s) = .ok a ↔
      ∃ node, d.payload.bind (Path.parse s).resolve = some node ∧
        a = d.withPayload (some node) := by
  simp only [narrow]
  cases d.payload.bind (Path.parse s).resolve with
  | none => simp
  | some node => simp [eq_comm]

/-- Narrowing to two texts joined by a dot is narrowing to the first, then to the second. -/
theorem narrow_append_dot {d a : Document} {s t : String} :
    narrow d (some (s ++ "." ++ t)) = .ok a ↔
      ∃ b, narrow d (some s) = .ok b ∧ narrow b (some t) = .ok a := by
  have hwalk : d.payload.bind (Path.parse (s ++ "." ++ t)).resolve =
      (d.payload.bind (Path.parse s).resolve).bind (Path.parse t).resolve := by
    rw [Option.bind_assoc]
    congr 1
    funext root
    exact Path.resolve_parse_append_dot s t root
  simp only [narrow_some_eq_ok, hwalk]
  constructor
  · rintro ⟨node, hnode, rfl⟩
    obtain ⟨mid, hmid, hnode⟩ := Option.bind_eq_some_iff.mp hnode
    exact ⟨d.withPayload (some mid), ⟨mid, hmid, rfl⟩, node, hnode, rfl⟩
  · -- the first narrowing leaves the node at `s` as the whole payload
    rintro ⟨b, ⟨mid, hmid, rfl⟩, node, hnode, rfl⟩
    exact ⟨node, by rw [hmid]; exact hnode, rfl⟩

/-- A read at a path is the read of the whole document, narrowed to the path. -/
theorem get_eq_narrow (r : ρ) (p : Principal) (x : String) (path : Option String) :
    get r p x path = get r p x none >>= fun d => narrow d path := by
  cases hb : Repository.byXid r x with
  | none => simp [get_of_byXid_none hb]
  | some d =>
    rw [get_of_byXid hb, get_of_byXid hb]
    cases p.mayAccess d.metadata.readers <;> simp [narrow]

/-- A public read at a path is the public read of the whole document, narrowed to the path. -/
theorem getPublic_eq_narrow (r : ρ) (x : String) (path : Option String) :
    getPublic r x path = getPublic r x none >>= fun d => narrow d path := by
  cases hb : Repository.byXid r x with
  | none => simp [getPublic_of_byXid_none hb]
  | some d =>
    rw [getPublic_of_byXid hb, getPublic_of_byXid hb]
    cases d.metadata.isPublic <;> simp [narrow]

/-- Whatever check comes first, narrowing after it to two texts joined by a dot answers as
narrowing to the first, then to the second. -/
theorem bind_narrow_append_dot (w : Except StoreError Document) {a : Document} {s t : String} :
    (w >>= fun d => narrow d (some (s ++ "." ++ t))) = .ok a ↔
      ∃ b, (w >>= fun d => narrow d (some s)) = .ok b ∧ narrow b (some t) = .ok a := by
  cases w with
  | error e => simp
  | ok d => simpa using narrow_append_dot

/-- A read at two texts joined by a dot answers exactly when the read at the first answers with a
payload that has a node at the second, and then with that node as the payload. -/
theorem get_append_dot {x s t : String} {a : Document} :
    get r p x (some (s ++ "." ++ t)) = .ok a ↔
      ∃ b, get r p x (some s) = .ok b ∧
        ∃ node, b.payload.bind (Path.parse t).resolve = some node ∧
          a = b.withPayload (some node) := by
  rw [get_eq_narrow r p x (some (s ++ "." ++ t)), bind_narrow_append_dot, ← get_eq_narrow]
  simp only [narrow_some_eq_ok]

/-- So does a public read. -/
theorem getPublic_append_dot {x s t : String} {a : Document} :
    getPublic r x (some (s ++ "." ++ t)) = .ok a ↔
      ∃ b, getPublic r x (some s) = .ok b ∧
        ∃ node, b.payload.bind (Path.parse t).resolve = some node ∧
          a = b.withPayload (some node) := by
  rw [getPublic_eq_narrow r x (some (s ++ "." ++ t)), bind_narrow_append_dot,
    ← getPublic_eq_narrow]
  simp only [narrow_some_eq_ok]

end Store

/-- What the text of a path is. -/
structure PathTextRules (ρ : Type) [Repository ρ] : Prop where
  /-- Every text parses to a path with at least one name, and its last name is what an edit
  changes, inside the object the names before it lead to. -/
  split_last (s : String) : (Path.parse s).keys ≠ [] ∧
    (Path.parse s).parents ++ [(Path.parse s).last] = (Path.parse s).keys
  /-- No name of a parsed path holds a dot. -/
  no_dot (s : String) : ∀ k ∈ (Path.parse s).keys, '.' ∉ k.toList
  /-- The text of a parsed path, its names joined by dots, is the text parsed. -/
  render_parse (s : String) : (Path.parse s).render = s ∧
    String.intercalate "." (Path.parse s).keys = s
  /-- A dotted text of a non-empty list of names, none holding a dot, parses to those names. -/
  parse_intercalate (ks : List String) (hne : ks ≠ []) (hdot : ∀ k ∈ ks, '.' ∉ k.toList) :
    (Path.parse (String.intercalate "." ks)).keys = ks
  /-- A read that fails for a missing node names the path text the caller gave. -/
  get (r : ρ) (p : Principal) (x x' t : String) (path : Option String)
    (h : Store.get r p x path = .error (.pathNotFound x' t)) : path = some t
  /-- So does a public read. -/
  getPublic (r : ρ) (x x' t : String) (path : Option String)
    (h : Store.getPublic r x path = .error (.pathNotFound x' t)) : path = some t
  /-- So does a write (an upsert or a create), under the request's path. -/
  write (s : Store ρ) (p : Principal) (req : Request) (fresh : Uuid) (co : Bool) (x t : String)
    (h : (s.call (Store.write p req fresh co)).1 = .error (.pathNotFound x t)) : req.path = some t
  /-- So does a delete. -/
  delete (s : Store ρ) (p : Principal) (x x' t : String) (path initiator : Option String)
    (h : (s.call (Store.delete p x path initiator)).1 = .error (.pathNotFound x' t)) :
    path = some t

/-- Splitting at dots and joining with dots are inverse on every text and on every non-empty list
of names without dots, and every store error for a missing node names the caller's path text. -/
theorem path_text_rules (ρ : Type) [Repository ρ] : PathTextRules ρ where
  split_last s := ⟨(Path.parse s).keys_ne_nil, (Path.parse s).parents_append_last⟩
  no_dot := Path.not_mem_keys_parse
  render_parse s := ⟨Path.render_parse s, by rw [← Path.render_eq_intercalate, Path.render_parse]⟩
  parse_intercalate _ hne hdot := Path.keys_parse_intercalate hne hdot
  get _ _ _ _ _ _ h := Store.get_pathNotFound h
  getPublic _ _ _ _ _ h := Store.getPublic_pathNotFound h
  write _ _ _ _ _ _ _ h := Store.write_pathNotFound h
  delete _ _ _ _ _ _ _ h := Store.delete_pathNotFound h

/-- How a path written as two texts joined by a dot reads. -/
structure JoinedPathRules (ρ : Type) [Repository ρ] : Prop where
  /-- Following the path of `s ++ "." ++ t` is following the path of `s`, then the path of `t`
  from the node reached; there is no node when either walk fails. -/
  resolve (root : Json) (s t : String) :
    (Path.parse (s ++ "." ++ t)).resolve root =
      ((Path.parse s).resolve root).bind (Path.parse t).resolve
  /-- A read at `s ++ "." ++ t` answers exactly when the read at `s` answers with a payload that
  has a node at `t`, and then with the document the read at `s` gives, that node its payload. -/
  get (r : ρ) (p : Principal) (x s t : String) (a : Document) :
    Store.get r p x (some (s ++ "." ++ t)) = .ok a ↔
      ∃ b, Store.get r p x (some s) = .ok b ∧
        ∃ node, b.payload.bind (Path.parse t).resolve = some node ∧
          a = b.withPayload (some node)
  /-- So does a public read. -/
  getPublic (r : ρ) (x s t : String) (a : Document) :
    Store.getPublic r x (some (s ++ "." ++ t)) = .ok a ↔
      ∃ b, Store.getPublic r x (some s) = .ok b ∧
        ∃ node, b.payload.bind (Path.parse t).resolve = some node ∧
          a = b.withPayload (some node)

/-- A walk along two path texts joined by a dot is the walk along the first, then along the
second, and so is a read of the store at such a path, public or not. -/
theorem joined_path_rules (ρ : Type) [Repository ρ] : JoinedPathRules ρ where
  resolve root s t := Path.resolve_parse_append_dot s t root
  get _ _ _ _ _ _ := Store.get_append_dot
  getPublic _ _ _ _ _ := Store.getPublic_append_dot

end DocStore
