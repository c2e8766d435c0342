import VideoCatalog.Proofs.Files.Settled
import VideoCatalog.Proofs.Json.Keys
import VideoCatalog.Proofs.Json.RoundTrip
import VideoCatalog.Proofs.Tags.Normal
import VideoCatalog.Tags.Store

/-!
# The entries of the tag store

* `NormalEntries`: paths are distinct and lists of tags are normal.
* `normalEntries_of_load`, `normalEntries_put`: so they are in every store that is read, and they
  stay so; `normalTags_tagsFor` says it of one path.
* `tagsFor_put`, `contains_put`, `put_put`: what a store holds after tags were put.
* `stored_value`, `entriesOf?_value`: the value of such a store can be written and read, and has
  the entries of the store.
* `load_of_settled`: a store is read again from a file with its document.
-/

namespace VideoCatalog.TagStore

/-- The entries have distinct paths and normal lists of tags. -/
structure NormalEntries (entries : List (String × List String)) : Prop where
  distinct : (entries.map (·.1)).Nodup
  normal : ∀ e ∈ entries, NormalTags e.2

theorem normalEntries_nil : NormalEntries [] := ⟨List.nodup_nil, by simp⟩

/-! ### Entries that are read -/

theorem mem_of_member? {key : String} {v w : Value} (found : v.member? key = some w) :
    ∃ members, v = .map members ∧ ∃ e ∈ members, e.2 = w := by
  cases v with
  | map members =>
    obtain ⟨e, first, same⟩ := Option.map_eq_some_iff.1 found
    exact ⟨members, rfl, e, List.mem_of_find?_eq_some first, same⟩
  | _ => cases found

theorem entry?_spec {member : Value × Value} {e : String × List String}
    (read : entry? member = some e) : e.1 = member.1.plain ∧ NormalTags e.2 := by
  unfold entry? at read
  split at read
  · obtain rfl := Option.some.inj read
    exact ⟨rfl, normalTags_normalizeTags _⟩
  · cases read

/-- The paths are some of the keys. -/
theorem sublist_paths (members : List (Value × Value)) :
    ((members.filterMap entry?).map (·.1)).Sublist (members.map (·.1.plain)) := by
  induction members with
  | nil => exact List.Sublist.refl _
  | cons member rest ih =>
    cases read : entry? member with
    | none =>
      rw [List.filterMap_cons_none read]
      exact ih.cons _
    | some e =>
      rw [List.filterMap_cons_some read, List.map_cons, List.map_cons, (entry?_spec read).1]
      exact ih.cons_cons _

theorem normalEntries_of_textKeys {members : List (Value × Value)}
    (keyed : Json.TextKeys members) : NormalEntries (members.filterMap entry?) := by
  obtain ⟨keys, distinct, same⟩ := keyed
  constructor
  · have plain : members.map (·.1.plain) = keys := by
      calc members.map (·.1.plain) = (members.map (·.1)).map Value.plain := by
            rw [List.map_map]
            rfl
        _ = keys := by
            rw [same, List.map_map]
            exact List.map_id keys
    exact distinct.sublist (plain ▸ sublist_paths members)
  · intro e mem
    obtain ⟨member, -, read⟩ := List.mem_filterMap.1 mem
    exact (entry?_spec read).2

/-- The entries of a document are normal, whatever document it is. -/
theorem normalEntries_of_entriesOf? {text : String} {document : Value}
    {entries : List (String × List String)} (parsed : Json.parse text = .ok document)
    (read : entriesOf? document = some entries) : NormalEntries entries := by
  unfold entriesOf? at read
  split at read
  · next members items =>
    obtain ⟨parts, rfl, part, among, inner⟩ := mem_of_member? items
    obtain rfl := Option.some.inj read
    exact normalEntries_of_textKeys ((Json.members_of_parse parsed).2 part among members inner)
  · cases read

/-- A store that is read belongs to its path and has normal entries. -/
theorem normalEntries_of_load {tree : FileTree} {path : Path} {store : TagStore}
    {log : List Record} (loaded : load tree path = .ok (store, log)) :
    store.path = path ∧ NormalEntries store.entries := by
  unfold load at loaded
  split at loaded
  · cases loaded
  · cases loaded
    exact ⟨rfl, normalEntries_nil⟩
  · split at loaded
    · split at loaded
      · cases loaded
        exact ⟨rfl, normalEntries_nil⟩
      · cases loaded
    · split at loaded
      · cases loaded
      · cases loaded
        exact ⟨rfl, normalEntries_nil⟩
      · next document parsed =>
        split at loaded
        · next entries read =>
          cases loaded
          exact ⟨rfl, normalEntries_of_entriesOf? parsed read⟩
        · cases loaded
          exact ⟨rfl, normalEntries_nil⟩

/-- A path has normal tags, also if it has none. -/
theorem normalTags_tagsFor {store : TagStore} (entries : NormalEntries store.entries)
    (path : String) : NormalTags (store.tagsFor path) := by
  unfold tagsFor
  cases found : store.entries.lookup path with
  | none => exact normalTags_nil
  | some tags =>
    obtain ⟨before, after, split, -⟩ := List.lookup_eq_some_iff.1 found
    exact entries.normal (path, tags) (by simp [split])

/-! ### Entries that are put -/

theorem path_put (store : TagStore) (path : String) (tags : List String) :
    (store.put path tags).path = store.path := by
  unfold put
  split <;> rfl

/-- The tags that were put are those of their path, and the others stay as they were. -/
theorem tagsFor_put (store : TagStore) (path other : String) (tags : List String) :
    (store.put path tags).tagsFor other = if other = path then tags else store.tagsFor other := by
  unfold put tagsFor
  split
  · next present =>
    obtain ⟨old, found⟩ := isSome_lookup present
    simp only [lookup_replace, found, Option.map_some]
    split <;> rfl
  · next absent =>
    rw [lookup_append_of_absent (Bool.eq_false_iff.2 absent)]
    split <;> rfl

/-- A path that tags were put for has an entry. -/
theorem contains_put (store : TagStore) (path other : String) (tags : List String) :
    (store.put path tags).contains other = (other == path || store.contains other) := by
  unfold put
  split
  · next present =>
    have keys (e : String × List String) :
        ((if e.1 == path then (path, tags) else e).1 == other) = (e.1 == other) := by
      split
      · next same => rw [eq_of_beq same]
      · rfl
    simp only [contains, List.any_map, Function.comp_def, keys]
    by_cases same : other = path
    · subst same
      rw [beq_self_eq_true, Bool.true_or]
      exact present
    · simp [beq_false_of_ne same]
  · simp only [contains, List.any_append, List.any_cons, List.any_nil, Bool.or_false]
    rw [Bool.or_comm, BEq.comm]

/-- Putting the tags of a path once more changes nothing. -/
theorem put_put (store : TagStore) (path : String) (tags : List String) :
    (store.put path tags).put path tags = store.put path tags := by
  have present : (store.put path tags).contains path = true := by simp [contains_put]
  have entries : (store.put path tags).entries.map
      (fun e => if e.1 == path then (path, tags) else e) = (store.put path tags).entries := by
    refine (List.map_congr_left fun e mem => ?_).trans (List.map_id _)
    split
    · next same =>
      -- The only entry of the path is the one that was put.
      unfold put at mem
      split at mem
      · obtain ⟨old, -, rfl⟩ := List.mem_map.1 mem
        split
        · rfl
        · next other =>
          rw [if_neg other] at same
          exact absurd same other
      · next absent =>
        rcases List.mem_append.1 mem with old | new
        · exact absurd (List.any_eq_true.2 ⟨e, old, same⟩) absent
        · rw [List.mem_singleton.1 new]
          rfl
    · rfl
  conv_lhs => rw [put, if_pos present]
  rw [entries]

/-- Putting a normal list keeps the entries normal. -/
theorem normalEntries_put {store : TagStore} (entries : NormalEntries store.entries)
    (path : String) {tags : List String} (normal : NormalTags tags) :
    NormalEntries (store.put path tags).entries := by
  unfold put
  split
  · constructor
    · have paths : (store.entries.map fun e => if e.1 == path then (path, tags) else e).map (·.1) =
          store.entries.map (·.1) := by
        rw [List.map_map]
        refine List.map_congr_left fun e _ => ?_
        by_cases same : e.1 = path <;> simp [same]
      exact paths.symm ▸ entries.distinct
    · intro e mem
      obtain ⟨old, there, rfl⟩ := List.mem_map.1 mem
      split
      · exact normal
      · exact entries.normal old there
  · next absent =>
    constructor
    · rw [List.map_append]
      refine List.Nodup.append entries.distinct (List.nodup_singleton _) fun p old new => ?_
      obtain rfl : p = path := List.mem_singleton.1 new
      obtain ⟨e, there, first⟩ := List.mem_map.1 old
      exact absent (List.any_eq_true.2 ⟨e, there, by simp [first]⟩)
    · intro e mem
      rcases List.mem_append.1 mem with old | new
      · exact entries.normal e old
      · rw [List.mem_singleton.1 new]
        exact normal

/-! ### Documents of stores -/

/-- The tags of an entry as a member of the document. -/
def entryMember (e : String × List String) : String × Value :=
  (e.1, .record [("tags", .list (e.2.map .text))])

theorem stored_value {store : TagStore} (distinct : (store.entries.map (·.1)).Nodup) :
    Json.Stored Json.depthLimit store.value := by
  -- The value of a store is nested four levels deep.
  have tags (texts : List String) :
      Json.Stored (Json.depthLimit - 3) (.list (texts.map .text)) := by
    refine .list fun v mem => ?_
    obtain ⟨text, -, rfl⟩ := List.mem_map.1 mem
    exact .text text
  have entry (e : String × List String) :
      Json.Stored (Json.depthLimit - 2) (entryMember e).2 := by
    refine .record (List.nodup_singleton _) fun part mem => ?_
    rw [List.mem_singleton.1 mem]
    exact tags e.2
  have items : Json.Stored (Json.depthLimit - 1) (.record (store.entries.map entryMember)) := by
    refine .record ?_ fun part mem => ?_
    · rw [List.map_map]
      exact distinct
    · obtain ⟨e, -, rfl⟩ := List.mem_map.1 mem
      exact entry e
  refine .record (by simp) fun part mem => ?_
  rcases List.mem_cons.1 mem with rfl | mem
  · exact .one
  · rw [List.mem_singleton.1 mem]
    exact items

/-- The member of an entry is read with its tags normalised. -/
theorem entry?_entryMember (e : String × List String) :
    entry? (Json.member (entryMember e)) = some (e.1, normalizeTags e.2) := by
  have plain : (e.2.map Value.text).map Value.plain = e.2 := by
    rw [List.map_map]
    exact List.map_id e.2
  have tags : (entryMember e).2.member? "tags" = some (.list (e.2.map .text)) := rfl
  unfold entry? Json.member
  dsimp only
  rw [tags]
  dsimp only
  rw [plain]
  rfl

/-- The member of an entry with a normal list is read as the entry. -/
theorem entry?_member {e : String × List String} (normal : NormalTags e.2) :
    entry? (Json.member (entryMember e)) = some e := by
  rw [entry?_entryMember, normalizeTags_of_normal normal]

/-- The value of a store has the entries of the store. -/
theorem entriesOf?_value {store : TagStore} (normal : ∀ e ∈ store.entries, NormalTags e.2) :
    entriesOf? store.value = some store.entries := by
  have items : store.value.member? "items" =
      some (.map (store.entries.map fun e => Json.member (entryMember e))) := by
    have same : Value.record (store.entries.map entryMember) =
        .map (store.entries.map fun e => Json.member (entryMember e)) := by
      rw [Value.record, List.map_map]
      rfl
    exact congrArg some same
  rw [entriesOf?, items]
  dsimp only
  rw [List.filterMap_map]
  refine congrArg some ?_
  calc store.entries.filterMap (fun e => entry? (Json.member (entryMember e)))
      = store.entries.filterMap some :=
        List.filterMap_congr fun e mem => entry?_member (normal e mem)
    _ = store.entries := List.filterMap_some

/-- A store is read again from a file with its document, without a warning. -/
theorem load_of_settled {tree : FileTree} {store : TagStore}
    (settled : tree.Settled store.path (Text.encode store.document))
    (entries : NormalEntries store.entries) : load tree store.path = .ok (store, []) := by
  have parsed : Json.parse store.document = .ok store.value :=
    Json.parse_document (stored_value entries.distinct)
  rw [load, settled.exists?]
  dsimp only
  rw [FileTree.readText_of_read settled.read]
  dsimp only
  rw [parsed]
  dsimp only
  rw [entriesOf?_value entries.normal]

end VideoCatalog.TagStore
