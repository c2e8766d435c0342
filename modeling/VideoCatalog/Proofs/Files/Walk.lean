import VideoCatalog.Files.Tree
import VideoCatalog.Proofs.Lookup

/-!
# Following names

* `FileTree.node?_put`, `FileTree.node?_erase`: what stands at a place after a change.
* `FileTree.Walks`: what names lead to; `walks_of_walk` and `Walks.walk` say that a walk finds it,
  and `stands_of_walks` and `free_of_walks` what stands there.
* `FileTree.Leads`: the directories that names lead to; `leads_of_walk` and `Leads.walk` say that
  a walk ends there.
* `Leads.congr`: only directories and links are passed on the way.
* `leads_of_append`, `Leads.walk_append`: what follows some names is looked up in the directory
  that they lead to; `leads_of_last`, `Leads.walk_last` and `Leads.walk_file` say this of one name.
-/

namespace VideoCatalog.FileTree

variable {t t' : FileTree} {here d : Place} {name last : String} {names rest : List String}
  {links : Nat}

/-! ### Changes of one place -/

/-- What stands at a place after a node was put somewhere. -/
theorem node?_put {place : Place} (below : place ≠ []) (node : FileNode) (other : Place) :
    (t.put place node).node? other = if other = place then some node else t.node? other := by
  by_cases top : other = []
  · subst top
    simp [node?, below.symm]
  · have ne : other.isEmpty = false := by simpa using top
    unfold put
    split
    · next present =>
      obtain ⟨old, found⟩ := isSome_lookup present
      simp only [node?, ne, Bool.false_eq_true, if_false, lookup_replace, found, Option.map_some]
    · next absent =>
      simp only [node?, ne, Bool.false_eq_true, if_false]
      exact lookup_append_of_absent (Bool.eq_false_iff.2 absent) other node

/-- What stands at a place after a node was taken away somewhere. -/
theorem node?_erase {place : Place} (below : place ≠ []) (other : Place) :
    (t.erase place).node? other = if other = place then none else t.node? other := by
  by_cases top : other = []
  · subst top
    simp [node?, below.symm]
  · have ne : other.isEmpty = false := by simpa using top
    simp only [node?, ne, Bool.false_eq_true, if_false, erase]
    induction t.nodes with
    | nil => simp
    | cons e rest ih =>
      obtain ⟨p, n⟩ := e
      by_cases hp : p = place
      · subst hp
        by_cases ho : other = p
        · simpa [ho] using ih
        · simpa [ho, List.lookup_cons, beq_false_of_ne ho] using ih
      · have np : (p != place) = true := by simpa using hp
        simp only [List.filter_cons, np, if_true, List.lookup_cons, ih]
        by_cases ho : other = place
        · subst ho
          simp [beq_false_of_ne (Ne.symm hp)]
        · simp only [ho, if_false]

/-! ### Walks -/

/-- The names lead from one directory to another, over a number of links at most. -/
inductive Leads (t : FileTree) : Nat → Place → List String → Place → Prop
  | stay {links : Nat} {d : Place} : Leads t links d [] d
  | up {links : Nat} {here d : Place} {rest : List String}
      (onward : Leads t links here.dropLast rest d) : Leads t links here (".." :: rest) d
  | down {links : Nat} {here d : Place} {name : String} {rest : List String} (named : name ≠ "..")
      (short : ¬nameLimit < name.utf8ByteSize)
      (stands : t.node? (here ++ [name]) = some .directory)
      (onward : Leads t links (here ++ [name]) rest d) : Leads t links here (name :: rest) d
  | across {links : Nat} {here d : Place} {name target : String} {rest : List String}
      (named : name ≠ "..") (short : ¬nameLimit < name.utf8ByteSize)
      (stands : t.node? (here ++ [name]) = some (.link target))
      (onward : Leads t links (if (Path.anchorOf target).isEmpty then here else [])
        (Path.namesOf target ++ rest) d) : Leads t (links + 1) here (name :: rest) d

variable {follow : Bool}

theorem walk_nil : t.walk follow links here [] = .ok (.present here .directory) := by
  cases links <;> rfl

theorem walk_cons (t : FileTree) (follow : Bool) (links : Nat) (here : Place) (name : String)
    (rest : List String) : t.walk follow links here (name :: rest) =
      if name = ".." then t.walk follow links here.dropLast rest
      else if nameLimit < name.utf8ByteSize then .error .nameTooLong
      else match t.node? (here ++ [name]) with
        | none => if rest.isEmpty then .ok (.absent (here ++ [name])) else .error .missing
        | some .directory => t.walk follow links (here ++ [name]) rest
        | some (.file content modified) =>
          if rest.isEmpty then .ok (.present (here ++ [name]) (.file content modified))
          else .error .notDirectory
        | some (.link target) =>
          if rest.isEmpty && !follow then .ok (.present (here ++ [name]) (.link target))
          else match links with
            | 0 => .error .linkLoop
            | links + 1 =>
              t.walk follow links (if (Path.anchorOf target).isEmpty then here else [])
                (Path.namesOf target ++ rest) := by
  cases links <;> rfl

/-- What holds of the names that are left, and of all names with one link less, holds of all. -/
theorem walk_induction {P : Nat → Place → List String → Prop}
    (stop : ∀ links here, P links here [])
    (go : ∀ links here name rest, (∀ there, P links there rest) →
      (∀ fewer, links = fewer + 1 → ∀ there names, P fewer there names) →
      P links here (name :: rest)) (links : Nat) (here : Place) (names : List String) :
    P links here names := by
  induction links generalizing here names with
  | zero =>
    induction names generalizing here with
    | nil => exact stop _ _
    | cons name rest ih => exact go _ _ _ _ ih (by simp)
  | succ links fewer =>
    induction names generalizing here with
    | nil => exact stop _ _
    | cons name rest ih =>
      refine go _ _ _ _ ih fun k same => ?_
      obtain rfl : links = k := Nat.succ.inj same
      exact fewer

/-- Names are followed to what is found. -/
inductive Walks (t : FileTree) (follow : Bool) : Nat → Place → List String → Lookup → Prop
  | stop {links : Nat} {here : Place} : Walks t follow links here [] (.present here .directory)
  | up {links : Nat} {here : Place} {rest : List String} {found : Lookup}
      (onward : Walks t follow links here.dropLast rest found) :
      Walks t follow links here (".." :: rest) found
  | free {links : Nat} {here : Place} {name : String} (named : name ≠ "..")
      (short : ¬nameLimit < name.utf8ByteSize) (stands : t.node? (here ++ [name]) = none) :
      Walks t follow links here [name] (.absent (here ++ [name]))
  | down {links : Nat} {here : Place} {name : String} {rest : List String} {found : Lookup}
      (named : name ≠ "..") (short : ¬nameLimit < name.utf8ByteSize)
      (stands : t.node? (here ++ [name]) = some .directory)
      (onward : Walks t follow links (here ++ [name]) rest found) :
      Walks t follow links here (name :: rest) found
  | file {links : Nat} {here : Place} {name : String} {content : List UInt8} {modified : Binary64}
      (named : name ≠ "..") (short : ¬nameLimit < name.utf8ByteSize)
      (stands : t.node? (here ++ [name]) = some (.file content modified)) :
      Walks t follow links here [name] (.present (here ++ [name]) (.file content modified))
  | link {links : Nat} {here : Place} {name target : String} (unfollowed : follow = false)
      (named : name ≠ "..") (short : ¬nameLimit < name.utf8ByteSize)
      (stands : t.node? (here ++ [name]) = some (.link target)) :
      Walks t follow links here [name] (.present (here ++ [name]) (.link target))
  | across {links : Nat} {here : Place} {name target : String} {rest : List String}
      {found : Lookup} (named : name ≠ "..") (short : ¬nameLimit < name.utf8ByteSize)
      (stands : t.node? (here ++ [name]) = some (.link target))
      (passed : (rest.isEmpty && !follow) = false)
      (onward : Walks t follow links (if (Path.anchorOf target).isEmpty then here else [])
        (Path.namesOf target ++ rest) found) :
      Walks t follow (links + 1) here (name :: rest) found

theorem walks_of_walk {found : Lookup} (looked : t.walk follow links here names = .ok found) :
    Walks t follow links here names found := by
  induction links, here, names using walk_induction with
  | stop links here =>
    rw [walk_nil] at looked
    cases looked
    exact .stop
  | go links here name rest onward across =>
    rw [walk_cons] at looked
    split at looked
    · next up => exact up ▸ .up (onward _ looked)
    · next named =>
      split at looked
      · cases looked
      · next short =>
        split at looked
        · next stands =>
          split at looked
          · next last =>
            obtain rfl := List.isEmpty_iff.1 last
            cases looked
            exact .free named short stands
          · cases looked
        · next stands => exact .down named short stands (onward _ looked)
        · next stands =>
          split at looked
          · next last =>
            obtain rfl := List.isEmpty_iff.1 last
            cases looked
            exact .file named short stands
          · cases looked
        · next stands =>
          split at looked
          · next last =>
            rw [Bool.and_eq_true, Bool.not_eq_true'] at last
            obtain rfl := List.isEmpty_iff.1 last.1
            cases looked
            exact .link last.2 named short stands
          · next passed =>
            cases links with
            | zero => cases looked
            | succ fewer =>
              exact .across named short stands (Bool.eq_false_iff.2 passed)
                (across fewer rfl _ _ looked)

theorem walk_up : t.walk follow links here (".." :: rest) =
    t.walk follow links here.dropLast rest := by
  rw [walk_cons, if_pos rfl]

theorem walk_down (named : name ≠ "..") (short : ¬nameLimit < name.utf8ByteSize)
    (stands : t.node? (here ++ [name]) = some .directory) :
    t.walk follow links here (name :: rest) = t.walk follow links (here ++ [name]) rest := by
  rw [walk_cons, if_neg named, if_neg short]
  simp only [stands]

theorem walk_across {target : String} (named : name ≠ "..")
    (short : ¬nameLimit < name.utf8ByteSize)
    (stands : t.node? (here ++ [name]) = some (.link target))
    (passed : (rest.isEmpty && !follow) = false) :
    t.walk follow (links + 1) here (name :: rest) =
      t.walk follow links (if (Path.anchorOf target).isEmpty then here else [])
        (Path.namesOf target ++ rest) := by
  rw [walk_cons, if_neg named, if_neg short]
  simp only [stands, passed, Bool.false_eq_true, if_false]

theorem walk_single_absent (named : name ≠ "..") (short : ¬nameLimit < name.utf8ByteSize)
    (stands : t.node? (here ++ [name]) = none) :
    t.walk false links here [name] = .ok (.absent (here ++ [name])) := by
  rw [walk_cons, if_neg named, if_neg short]
  simp [stands]

theorem walk_single {node : FileNode} (named : name ≠ "..")
    (short : ¬nameLimit < name.utf8ByteSize) (stands : t.node? (here ++ [name]) = some node) :
    t.walk false links here [name] = .ok (.present (here ++ [name]) node) := by
  rw [walk_cons, if_neg named, if_neg short]
  cases node with
  | directory =>
    simp only [stands]
    rw [walk_nil]
  | file content modified => simp [stands]
  | link target => simp [stands]

theorem Walks.walk {found : Lookup} (walks : Walks t follow links here names found) :
    t.walk follow links here names = .ok found := by
  induction walks with
  | stop => exact walk_nil
  | up _ ih => rw [walk_up, ih]
  | free named short stands => simp [walk_cons, named, short, stands]
  | down named short stands _ ih => rw [walk_down named short stands, ih]
  | file named short stands => simp [walk_cons, named, short, stands]
  | link unfollowed named short stands => simp [walk_cons, named, short, stands, unfollowed]
  | across named short stands passed _ ih => rw [walk_across named short stands passed, ih]

/-- What a walk ends at stands there, if it is no directory. -/
theorem stands_of_walks {found : Lookup} (walks : Walks t follow links here names found)
    {place : Place} {node : FileNode} (present : found = .present place node)
    (outside : node ≠ .directory) : t.node? place = some node := by
  induction walks with
  | stop =>
    cases present
    exact absurd rfl outside
  | up _ ih | down _ _ _ _ ih | across _ _ _ _ _ ih => exact ih present
  | free => cases present
  | file _ _ stands | link _ _ _ stands =>
    cases present
    exact stands

/-- Nothing stands at a place that is found to be absent. -/
theorem free_of_walks {found : Lookup} (walks : Walks t follow links here names found)
    {place : Place} (absent : found = .absent place) : place ≠ [] ∧ t.node? place = none := by
  induction walks with
  | stop | file | link => cases absent
  | up _ ih | down _ _ _ _ ih | across _ _ _ _ _ ih => exact ih absent
  | free _ _ stands =>
    cases absent
    exact ⟨by simp, stands⟩

theorem Leads.walk (leads : Leads t links here names d) :
    t.walk true links here names = .ok (.present d .directory) := by
  induction leads with
  | stay => rw [walk_nil]
  | up _ ih => rw [walk_up, ih]
  | down named short stands _ ih => rw [walk_down named short stands, ih]
  | across named short stands _ ih => rw [walk_across named short stands (by simp), ih]

/-- Names lead to one place only. -/
theorem Leads.unique {e : Place} (leads : Leads t links here names d)
    (leads' : Leads t links here names e) : d = e := by
  have both := leads.walk.symm.trans leads'.walk
  cases both
  rfl

/-- Files are not passed on the way. -/
theorem Leads.congr (leads : Leads t links here names d)
    (same : ∀ place node, t.node? place = some node → (∀ c m, node ≠ .file c m) →
      t'.node? place = some node) : Leads t' links here names d := by
  induction leads with
  | stay => exact .stay
  | up _ ih => exact .up ih
  | down named short stands _ ih => exact .down named short (same _ _ stands (by simp)) ih
  | across named short stands _ ih => exact .across named short (same _ _ stands (by simp)) ih

/-- What names lead to can be named. -/
theorem Leads.unfollowed (leads : Leads t links here names d) :
    ∃ place node, t.walk false links here names = .ok (.present place node) := by
  induction leads with
  | stay => exact ⟨_, _, walk_nil⟩
  | up _ ih =>
    rw [walk_up]
    exact ih
  | down named short stands _ ih =>
    rw [walk_down named short stands]
    exact ih
  | @across links here d name target rest named short stands _ ih =>
    by_cases last : rest = []
    · subst last
      exact ⟨here ++ [name], .link target, walk_single named short stands⟩
    · rw [walk_across named short stands (by simp [last])]
      exact ih

/-- What follows is looked up in the directory that the names before lead to. -/
theorem Leads.walk_append (follow : Bool) (leads : Leads t links here names d)
    {more : List String} (others : more ≠ []) :
    ∃ k, t.walk follow links here (names ++ more) = t.walk follow k d more := by
  induction leads with
  | stay => exact ⟨_, rfl⟩
  | up _ ih =>
    obtain ⟨k, same⟩ := ih
    exact ⟨k, by rw [List.cons_append, walk_up, same]⟩
  | down named short stands _ ih =>
    obtain ⟨k, same⟩ := ih
    exact ⟨k, by rw [List.cons_append, walk_down named short stands, same]⟩
  | across named short stands _ ih =>
    obtain ⟨k, same⟩ := ih
    refine ⟨k, ?_⟩
    rw [List.cons_append, walk_across named short stands (by simp [others]),
      ← List.append_assoc, same]

/-- Names that are followed by others lead to a directory, or else what they lead to is none. -/
theorem leads_of_append {more : List String} {found : Lookup}
    (inner : more ≠ [] ∨ follow = true ∧ ∃ d, found = .present d .directory)
    (looked : t.walk follow links here (names ++ more) = .ok found) :
    ∃ d, Leads t links here names d := by
  induction links, here, names using walk_induction with
  | stop links here => exact ⟨here, .stay⟩
  | go links here name rest onward across =>
    rw [List.cons_append] at looked
    by_cases named : name = ".."
    · subst named
      rw [walk_up] at looked
      obtain ⟨d, leads⟩ := onward _ looked
      exact ⟨d, .up leads⟩
    by_cases short : nameLimit < name.utf8ByteSize
    · rw [walk_cons, if_neg named, if_pos short] at looked
      cases looked
    -- What is neither a directory nor a link ends the lookup, but names are to follow.
    have stops {other : Lookup} {f : FileFault}
        (same : (if (rest ++ more).isEmpty then .ok other else .error f) = Except.ok found)
        (nowhere : ∀ d, other ≠ .present d .directory) : False := by
      split at same
      · next ended =>
        rcases inner with others | ⟨-, d, rfl⟩
        · exact others (List.append_eq_nil_iff.1 (List.isEmpty_iff.1 ended)).2
        · exact nowhere d (Except.ok.inj same)
      · cases same
    cases stands : t.node? (here ++ [name]) with
    | none =>
      rw [walk_cons, if_neg named, if_neg short, stands] at looked
      exact (stops looked (by simp)).elim
    | some node =>
      cases node with
      | directory =>
        rw [walk_down named short stands] at looked
        obtain ⟨d, leads⟩ := onward _ looked
        exact ⟨d, .down named short stands leads⟩
      | file content modified =>
        rw [walk_cons, if_neg named, if_neg short, stands] at looked
        exact (stops looked (by simp)).elim
      | link target =>
        have passed : ((rest ++ more).isEmpty && !follow) = false := by
          rcases inner with others | ⟨rfl, -⟩
          · simp [others]
          · simp
        cases links with
        | zero =>
          rw [walk_cons, if_neg named, if_neg short, stands] at looked
          simp [passed] at looked
        | succ links =>
          rw [walk_across named short stands passed, ← List.append_assoc] at looked
          obtain ⟨d, leads⟩ := across links rfl _ _ looked
          exact ⟨d, .across named short stands leads⟩

theorem leads_of_walk (found : t.walk true links here names = .ok (.present d .directory)) :
    Leads t links here names d := by
  have looked : t.walk true links here (names ++ []) = .ok (.present d .directory) := by
    rw [List.append_nil, found]
  obtain ⟨e, leads⟩ := leads_of_append (.inr ⟨rfl, d, rfl⟩) looked
  rw [leads.walk] at found
  cases found
  exact leads

/-- The last of some names is found in the directory that the others lead to. -/
theorem leads_of_last {found : Lookup}
    (looked : t.walk false links here (names ++ [last]) = .ok found)
    (inside : ∀ d, found ≠ .present d .directory) :
    last ≠ ".." ∧ ¬nameLimit < last.utf8ByteSize ∧ ∃ d, Leads t links here names d ∧
      (found = .absent (d ++ [last]) ∧ t.node? (d ++ [last]) = none ∨
        ∃ node, found = .present (d ++ [last]) node ∧ t.node? (d ++ [last]) = some node) := by
  obtain ⟨d, leads⟩ := leads_of_append (.inl (List.cons_ne_nil last [])) looked
  obtain ⟨k, same⟩ := leads.walk_append _ (List.cons_ne_nil last [])
  rw [same] at looked
  have named : last ≠ ".." := by
    rintro rfl
    rw [walk_up, walk_nil] at looked
    exact inside _ (Except.ok.inj looked).symm
  by_cases long : nameLimit < last.utf8ByteSize
  · rw [walk_cons, if_neg named, if_pos long] at looked
    cases looked
  · refine ⟨named, long, d, leads, ?_⟩
    cases stands : t.node? (d ++ [last]) with
    | none =>
      rw [walk_single_absent named long stands] at looked
      exact .inl ⟨(Except.ok.inj looked).symm, rfl⟩
    | some node =>
      rw [walk_single named long stands] at looked
      exact .inr ⟨node, (Except.ok.inj looked).symm, rfl⟩

/-- A node under the last name is found in the directory that the others lead to. -/
theorem Leads.walk_last {node : FileNode} (leads : Leads t links here names d)
    (named : last ≠ "..") (short : ¬nameLimit < last.utf8ByteSize)
    (stands : t.node? (d ++ [last]) = some node) :
    t.walk false links here (names ++ [last]) = .ok (.present (d ++ [last]) node) := by
  obtain ⟨k, same⟩ := leads.walk_append false (List.cons_ne_nil last [])
  rw [same, walk_single named short stands]

/-- A file under the last name is found with or without following links. -/
theorem Leads.walk_file {content : List UInt8} {modified : Binary64}
    (leads : Leads t links here names d) (named : last ≠ "..")
    (short : ¬nameLimit < last.utf8ByteSize)
    (stands : t.node? (d ++ [last]) = some (.file content modified)) :
    t.walk follow links here (names ++ [last]) =
      .ok (.present (d ++ [last]) (.file content modified)) := by
  obtain ⟨k, same⟩ := leads.walk_append _ (List.cons_ne_nil last [])
  rw [same, walk_cons, if_neg named, if_neg short]
  simp [stands]

end VideoCatalog.FileTree
