import Mathlib.Data.List.Nodup
import Mathlib.Tactic.Common
import VideoCatalog.Json.Reader

/-!
# The keys of mappings that are read

* `TextKeys`: the keys of a mapping are distinct texts.
* `members_of_readValue`: every mapping that is read has such keys.
* `members_of_parse`: so has every mapping right inside the mapping of a document.
-/

namespace VideoCatalog.Json

/-- The keys of the members are distinct texts. -/
def TextKeys (members : List (Value × Value)) : Prop :=
  ∃ keys : List String, keys.Nodup ∧ members.map (·.1) = keys.map .text

theorem textKeys_insert {members : List (Value × Value)} (keyed : TextKeys members) (key : String)
    (v : Value) : TextKeys (Value.insert (.text key) v members) := by
  obtain ⟨keys, distinct, same⟩ := keyed
  unfold Value.insert
  split
  · refine ⟨keys, distinct, ?_⟩
    rw [← same, List.map_map]
    refine List.map_congr_left fun e _ => ?_
    dsimp only [Function.comp]
    split <;> rfl
  · next absent =>
    refine ⟨keys ++ [key], ?_, by simp [same]⟩
    refine List.Nodup.append distinct (List.nodup_singleton key) fun k old new => ?_
    obtain rfl : k = key := List.mem_singleton.1 new
    have there : Value.text k ∈ members.map (·.1) := same ▸ List.mem_map_of_mem old
    obtain ⟨e, mem, first⟩ := List.mem_map.1 there
    exact absent (List.any_eq_true.2 ⟨e, mem, by simp [first, Value.sameKey]⟩)

theorem mem_insert {members : List (Value × Value)} {key v : Value} {e : Value × Value}
    (mem : e ∈ Value.insert key v members) : e.2 = v ∨ e ∈ members := by
  unfold Value.insert at mem
  split at mem
  · obtain ⟨old, there, rfl⟩ := List.mem_map.1 mem
    split
    · exact .inl rfl
    · exact .inr there
  · rcases List.mem_append.1 mem with mem | mem
    · exact .inr mem
    · exact .inl (by rw [List.mem_singleton.1 mem])

/-- The members of a mapping have distinct texts as keys; what holds of all values that are read
inside holds of their values. -/
theorem readMembers_spec {P : Value → Prop} {depth : Nat} (fuel : Nat)
    (values : ∀ fuel text v rest, readValue fuel depth text = .ok (v, rest) → P v)
    {done : List (Value × Value)} {text rest : List Char} {v : Value} (keyed : TextKeys done)
    (held : ∀ e ∈ done, P e.2) (read : readMembers fuel depth done text = .ok (v, rest)) :
    ∃ members, v = .map members ∧ TextKeys members ∧ ∀ e ∈ members, P e.2 := by
  induction fuel generalizing done text with
  | zero => simp [readMembers] at read
  | succ fuel ih =>
    unfold readMembers at read
    dsimp only at read
    split at read
    · split at read
      · cases read
      · next key after _ =>
        split at read
        · split at read
          · cases read
          · next value _ found =>
            -- The new member is put in before it is known whether the mapping goes on.
            have held' : ∀ e ∈ Value.insert (.text key) value done, P e.2 := by
              intro e mem
              rcases mem_insert mem with same | old
              · exact same ▸ values _ _ _ _ found
              · exact held e old
            split at read
            · cases read
              exact ⟨_, rfl, textKeys_insert keyed key value, held'⟩
            · exact ih (textKeys_insert keyed key value) held' read
            · cases read
        · cases read
    · cases read

/-- Items that are read make a list. -/
theorem readItems_spec {depth : Nat} (fuel : Nat) {done : List Value} {text rest : List Char}
    {v : Value} (read : readItems fuel depth done text = .ok (v, rest)) :
    ∃ items, v = .list items := by
  induction fuel generalizing done text with
  | zero => simp [readItems] at read
  | succ fuel ih =>
    unfold readItems at read
    split at read
    · cases read
    · split at read
      · cases read
        exact ⟨_, rfl⟩
      · exact ih read
      · cases read

/-- A number that is read is a number. -/
theorem readNumber_spec {negative : Bool} {text rest : List Char} {v : Value}
    (read : readNumber negative text = .ok (v, rest)) : ∃ q, v = .number q := by
  unfold readNumber at read
  dsimp only at read
  rcases ite_eq_iff.1 read with ⟨-, malformed⟩ | ⟨-, read⟩
  · cases malformed
  · rcases ite_eq_iff.1 read with ⟨-, read⟩ | ⟨-, read⟩
    · rcases ite_eq_iff.1 read with ⟨-, long⟩ | ⟨-, read⟩
      · cases long
      · exact ⟨_, (congrArg Prod.fst (Except.ok.inj read)).symm⟩
    · exact ⟨_, (congrArg Prod.fst (Except.ok.inj read)).symm⟩

/-- What is no list, mapping or text is no mapping. -/
theorem readScalar_spec {text rest : List Char} {v : Value}
    (read : readScalar text = .ok (v, rest)) (members : List (Value × Value)) :
    v ≠ .map members := by
  rintro rfl
  unfold readScalar at read
  dsimp only at read
  split at read
  · next found word =>
    cases read
    obtain ⟨w, mem, hit⟩ := List.exists_of_findSome?_eq_some word
    obtain ⟨after, -, same⟩ := Option.map_eq_some_iff.1 hit
    have : w.2 = .map members := congrArg Prod.fst same
    simp only [List.mem_cons, List.not_mem_nil, or_false] at mem
    rcases mem with rfl | rfl | rfl | rfl | rfl | rfl <;> cases this
  · split at read
    · obtain ⟨q, number⟩ := readNumber_spec read
      cases number
    · obtain ⟨q, number⟩ := readNumber_spec read
      cases number

/-- A mapping that is read has distinct texts as keys; what holds of all values that are read
holds of the values inside. -/
theorem members_of_readValue {P : Value → Prop}
    (values : ∀ fuel depth text v rest, readValue fuel depth text = .ok (v, rest) → P v)
    {fuel depth : Nat} {text rest : List Char} {members : List (Value × Value)}
    (read : readValue fuel depth text = .ok (.map members, rest)) :
    TextKeys members ∧ ∀ e ∈ members, P e.2 := by
  have none_done : TextKeys [] := ⟨[], List.nodup_nil, rfl⟩
  cases fuel with
  | zero => simp [readValue] at read
  | succ fuel =>
    unfold readValue at read
    split at read
    · split at read <;> cases read
    · split at read
      · cases read
      · split at read
        · cases read
        · obtain ⟨items, same⟩ := readItems_spec fuel read
          cases same
    · split at read
      · cases read
      · split at read
        · cases read
          exact ⟨none_done, by simp⟩
        · obtain ⟨found, same, keyed, held⟩ := readMembers_spec fuel
            (fun fuel text v rest => values fuel _ text v rest) none_done (by simp) read
          cases same
          exact ⟨keyed, held⟩
    · exact absurd rfl (readScalar_spec read members)

/-- The mapping of a document has distinct texts as keys, and so have the mappings in it. -/
theorem members_of_parse {text : String} {members : List (Value × Value)}
    (parsed : parse text = .ok (.map members)) :
    TextKeys members ∧ ∀ e ∈ members, ∀ inner, e.2 = .map inner → TextKeys inner := by
  have keyed (fuel depth : Nat) (text : List Char) (v : Value) (rest : List Char)
      (read : readValue fuel depth text = .ok (v, rest)) :
      ∀ inner, v = .map inner → TextKeys inner := by
    rintro inner rfl
    exact (members_of_readValue (P := fun _ => True) (fun _ _ _ _ _ _ => trivial) read).1
  unfold parse at parsed
  dsimp only at parsed
  split at parsed
  · cases parsed
  · split at parsed
    · cases parsed
    · next v rest read =>
      split at parsed
      · cases parsed
        exact members_of_readValue keyed read
      · cases parsed

end VideoCatalog.Json
