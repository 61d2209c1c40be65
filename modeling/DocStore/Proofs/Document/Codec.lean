import Mathlib
import DocStore.Proofs.Repository.Reopen
import DocStore.Proofs.Access.GroupText
import DocStore.Proofs.Json.Sorted

/-!
# Documents read back from their texts

A document is written as its JSON form and read back by reading the fields of that form. When
printing the form and reading the text gives the form back, the document comes back as
`Document.reread` says: with its group sets read again from their texts, and its payload read as
a payload field, where `null` is no payload and objects are made sorted maps.

* `Json.bind_asPayload_asPayload`: a payload read once reads back as itself.
* `Document.reread_of_ofText`, `Metadata.reread_of_ofText`: a document, or metadata, read from a
  text is what its own JSON form reads back as.
* `Document.ofText_print_eq_self_iff`: a document built as the library builds one (its payload a
  value whose objects are sorted maps, its group sets built from names) comes back as itself
  exactly when its payload is not `null` and none of its group names holds a comma.
* `codec_rules`: the three together.
-/

namespace DocStore

namespace Json

/-- `normalize` gives `null` only for `null`. -/
theorem normalize_ne_null {v : Json} (h : v ≠ .null) : normalize v ≠ .null := by
  cases v with
  | null => exact absurd rfl h
  | _ => simp [normalize]

theorem asPayload_of_ne_null {v : Json} (h : v ≠ .null) : asPayload v = some (normalize v) := by
  cases v with
  | null => exact absurd rfl h
  | _ => rfl

theorem normalize_normalize (v : Json) : normalize (normalize v) = normalize v :=
  normalize_of_sorted (sorted_normalize v)

/-- A payload field read once reads back as itself. -/
theorem bind_asPayload_asPayload (p : Option Json) :
    (p.bind asPayload).bind asPayload = p.bind asPayload := by
  cases p with
  | none => rfl
  | some v =>
    by_cases hv : v = .null
    · subst hv
      rfl
    · simp only [Option.bind_some, asPayload_of_ne_null hv,
        asPayload_of_ne_null (normalize_ne_null hv), normalize_normalize]

/-- A payload whose objects are sorted maps reads back as itself exactly when it is not
`null`. -/
theorem bind_asPayload_eq_self_iff {p : Option Json} (hp : ∀ v, p = some v → v.Sorted) :
    p.bind asPayload = p ↔ p ≠ some .null := by
  cases p with
  | none => simp
  | some v =>
    by_cases hv : v = .null
    · subst hv
      simp [asPayload]
    · simp [asPayload_of_ne_null hv, normalize_of_sorted (hp v rfl), hv]

end Json

namespace Document

/-- A document read from JSON has group sets read from texts and a payload read as a payload
field. -/
theorem ofJson_eq_some {j : Json} {e : Document} (h : ofJson j = some e) :
    ∃ rs es : String, ∃ p : Option Json, e.metadata.readers = GroupSet.ofText rs ∧
      e.metadata.editors = GroupSet.ofText es ∧ e.payload = p.bind Json.asPayload := by
  unfold ofJson at h
  split at h
  · simp only [Json.required, Json.asGroupSet?, Option.bind_eq_bind, Option.bind_eq_some_iff,
      Option.map_eq_some_iff, Option.pure_def, Option.some.injEq] at h
    obtain ⟨_, _, _, _, _, _, _, _, _, ⟨_, _, _, _, rs, _, hr⟩, _, ⟨_, _, _, _, es, _, he⟩, p, _,
      hd⟩ := h
    subst hd hr he
    refine ⟨rs, es, p, ?_, ?_, ?_⟩ <;> dsimp only
  · next id xid name pub readers editors payload =>
    simp only [ofFields, Json.asGroupSet?, Option.bind_eq_bind, Option.bind_eq_some_iff,
      Option.map_eq_some_iff, Option.pure_def, Option.some.injEq] at h
    obtain ⟨_, _, _, _, _, _, _, _, _, ⟨rs, _, hr⟩, _, ⟨es, _, he⟩, hd⟩ := h
    subst hd hr he
    refine ⟨rs, es, some payload, ?_, ?_, ?_⟩ <;> dsimp only
    rfl
  · cases h

/-- A document read from JSON is what its own JSON form reads back as. -/
theorem reread_of_ofJson {j : Json} {e : Document} (h : ofJson j = some e) : e.reread = e := by
  obtain ⟨rs, es, p, hr, he, hp⟩ := ofJson_eq_some h
  obtain ⟨id, xid, ⟨name, pub, readers, editors⟩, payload⟩ := e
  simp only at hr he hp
  subst hr he hp
  simp only [reread, GroupSet.ofText_toText_ofText, Json.bind_asPayload_asPayload]

/-- A document read from a text is what its own JSON form reads back as. -/
theorem reread_of_ofText {t : String} {e : Document} (h : ofText t = some e) : e.reread = e := by
  obtain ⟨j, -, hj⟩ := Option.bind_eq_some_iff.mp h
  exact reread_of_ofJson hj

/-- A document whose JSON form, printed, reads back as that form is read from the printed text as
its JSON form reads back. -/
theorem ofText_print {d : Document} {print : Json → String}
    (h : Json.parseSelected (fieldNames.contains ·) (print d.toJson) = some d.toJson) :
    ofText (print d.toJson) = some d.reread := by
  rw [ofText, h, Option.bind_some, ofJson_toJson]

/-- A document with a payload whose objects are sorted maps and group sets built from names,
whose printed JSON form reads back as that form, is read back as itself exactly when its payload
is not `null` and none of its group names holds a comma. -/
theorem ofText_print_eq_self_iff {d : Document} {print : Json → String}
    (h : Json.parseSelected (fieldNames.contains ·) (print d.toJson) = some d.toJson)
    (hpay : ∀ v, d.payload = some v → v.Sorted)
    (hr : ∃ xs, d.metadata.readers = GroupSet.ofList xs)
    (he : ∃ xs, d.metadata.editors = GroupSet.ofList xs) :
    ofText (print d.toJson) = some d ↔ d.payload ≠ some .null ∧
      (∀ x ∈ d.metadata.readers.names, ',' ∉ x.toList) ∧
      (∀ x ∈ d.metadata.editors.names, ',' ∉ x.toList) := by
  -- a group set built from names reads back from its text unless a name holds a comma
  have hset : ∀ S : GroupSet, (∃ xs, S = GroupSet.ofList xs) →
      (GroupSet.ofText S.toText = S ↔ ∀ x ∈ S.names, ',' ∉ x.toList) := by
    rintro S ⟨xs, rfl⟩
    exact GroupSet.ofText_toText_ofList_iff xs
  rw [ofText_print h, Option.some.injEq, reread_eq_self_iff, Json.bind_asPayload_eq_self_iff hpay,
    hset _ hr, hset _ he]

end Document

namespace Metadata

/-- What the JSON form of metadata reads back as: the same metadata, with each group set read
again from its text. -/
def reread (m : Metadata) : Metadata :=
  ⟨m.name, m.isPublic, GroupSet.ofText m.readers.toText, GroupSet.ofText m.editors.toText⟩

theorem ofJson_toJson (m : Metadata) : ofJson m.toJson = some m.reread := by
  simp [ofJson, toJson, Json.fieldOnce, Json.required, Json.asString?, Json.asBool?,
    Json.asGroupSet?, reread]

/-- Metadata read from JSON have group sets read from texts. -/
theorem ofJson_eq_some {j : Json} {m : Metadata} (h : ofJson j = some m) :
    ∃ rs es : String, m.readers = GroupSet.ofText rs ∧ m.editors = GroupSet.ofText es := by
  unfold ofJson at h
  split at h
  · simp only [Json.required, Json.asGroupSet?, Option.bind_eq_bind, Option.bind_eq_some_iff,
      Option.map_eq_some_iff, Option.pure_def, Option.some.injEq] at h
    obtain ⟨_, _, _, _, _, ⟨_, _, _, _, rs, _, hr⟩, _, ⟨_, _, _, _, es, _, he⟩, hm⟩ := h
    subst hm hr he
    refine ⟨rs, es, ?_, ?_⟩ <;> dsimp only
  · simp only [Json.asGroupSet?, Option.bind_eq_bind, Option.bind_eq_some_iff,
      Option.map_eq_some_iff, Option.pure_def, Option.some.injEq] at h
    obtain ⟨_, _, _, _, _, ⟨rs, _, hr⟩, _, ⟨es, _, he⟩, hm⟩ := h
    subst hm hr he
    refine ⟨rs, es, ?_, ?_⟩ <;> dsimp only
  · cases h

/-- Metadata read from a text are what their own JSON form reads back as. -/
theorem reread_of_ofText {t : String} {m : Metadata} (h : ofText t = some m) : m.reread = m := by
  obtain ⟨j, -, hj⟩ := Option.bind_eq_some_iff.mp h
  obtain ⟨rs, es, hr, he⟩ := ofJson_eq_some hj
  obtain ⟨name, pub, readers, editors⟩ := m
  simp only at hr he
  subst hr he
  simp only [reread, GroupSet.ofText_toText_ofText]

/-- Metadata whose JSON form, printed, reads back as that form are read from the printed text as
their JSON form reads back. -/
theorem ofText_print {m : Metadata} {print : Json → String}
    (h : Json.parseSelected (fieldNames.contains ·) (print m.toJson) = some m.toJson) :
    ofText (print m.toJson) = some m.reread := by
  rw [ofText, h, Option.bind_some, ofJson_toJson]

end Metadata

/-- How documents and metadata come back from their printed texts, for any printer under which
the JSON form reads back as itself (as the compact and the indented printer do when printing and
reading a JSON value gives it back). -/
structure CodecRules (print : Json → String) : Prop where
  /-- A document built as the library builds one (any identifier, key and name; a payload that is
  none, `null` or a value whose objects are sorted maps; group sets built from names, as reading a
  text builds them from its parts) comes back as itself exactly when its payload is not `null`
  and none of its group names holds a comma. -/
  built (d : Document) (hpay : ∀ v, d.payload = some v → v.Sorted)
    (hreaders : ∃ xs, d.metadata.readers = GroupSet.ofList xs)
    (heditors : ∃ xs, d.metadata.editors = GroupSet.ofList xs)
    (hread : Json.parseSelected (Document.fieldNames.contains ·) (print d.toJson) = some d.toJson) :
    Document.ofText (print d.toJson) = some d ↔ d.payload ≠ some .null ∧
      (∀ x ∈ d.metadata.readers.names, ',' ∉ x.toList) ∧
      (∀ x ∈ d.metadata.editors.names, ',' ∉ x.toList)
  /-- A document read from a text comes back as itself. -/
  read (t : String) (e : Document) (h : Document.ofText t = some e)
    (hread : Json.parseSelected (Document.fieldNames.contains ·) (print e.toJson) = some e.toJson) :
    Document.ofText (print e.toJson) = some e
  /-- Metadata read from a text come back as themselves. -/
  metadata (t : String) (m : Metadata) (h : Metadata.ofText t = some m)
    (hread : Json.parseSelected (Metadata.fieldNames.contains ·) (print m.toJson) = some m.toJson) :
    Metadata.ofText (print m.toJson) = some m

/-- Documents and metadata read from texts come back from their printed texts as themselves, and a
document built with a `null` payload or a group name holding a comma does not. -/
theorem codec_rules (print : Json → String) : CodecRules print where
  built _ hpay hreaders heditors hread :=
    Document.ofText_print_eq_self_iff hread hpay hreaders heditors
  read _ _ h hread := by rw [Document.ofText_print hread, Document.reread_of_ofText h]
  metadata _ _ h hread := by rw [Metadata.ofText_print hread, Metadata.reread_of_ofText h]

set_option maxRecDepth 20000 in
/-- A document with a `null` payload, printed compactly, reads back as its JSON form, and yet is
not read back as itself: its payload comes back as none. -/
theorem codec_rules_null_payload :
    Json.parseSelected (Document.fieldNames.contains ·)
        (Json.render (⟨⟨1⟩, "a", ⟨"n", true, GroupSet.empty, GroupSet.empty⟩, some .null⟩ :
          Document).toJson) =
      some (⟨⟨1⟩, "a", ⟨"n", true, GroupSet.empty, GroupSet.empty⟩, some .null⟩ : Document).toJson ∧
    Document.ofText (Json.render (⟨⟨1⟩, "a", ⟨"n", true, GroupSet.empty, GroupSet.empty⟩,
        some .null⟩ : Document).toJson) ≠
      some ⟨⟨1⟩, "a", ⟨"n", true, GroupSet.empty, GroupSet.empty⟩, some .null⟩ := by
  have hread : Json.parseSelected (Document.fieldNames.contains ·)
      (Json.render (⟨⟨1⟩, "a", ⟨"n", true, GroupSet.empty, GroupSet.empty⟩, some .null⟩ :
        Document).toJson) =
      some (⟨⟨1⟩, "a", ⟨"n", true, GroupSet.empty, GroupSet.empty⟩, some .null⟩ :
        Document).toJson := by
    cbv
  have hpay : ∀ v, (some Json.null : Option Json) = some v → v.Sorted := by
    rintro v ⟨⟩
    exact .null
  refine ⟨hread, fun h => ?_⟩
  exact (((codec_rules Json.render).built _ hpay ⟨[], rfl⟩ ⟨[], rfl⟩ hread).mp h).1 rfl

end DocStore
