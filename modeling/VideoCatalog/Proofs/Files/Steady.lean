import VideoCatalog.Proofs.Files.Settled

/-!
# Which paths are steady

* `walks_more`: more links than needed do no harm.
* `steady_of_find`: a path that leads to a file is steady, and so is one that leads to a free
  place in a directory that is there.
* `steady_of_vacant`: so is a path that names nothing once its directory has been made.
-/

namespace VideoCatalog.FileTree

variable {t : FileTree} {p : Path} {links : Nat} {here d : Place} {names : List String}
  {follow : Bool}

/-- What is found over a number of links is found over more links, too. -/
theorem walks_more {found : Lookup} (walks : Walks t follow links here names found) {more : Nat}
    (enough : links ≤ more) : Walks t follow more here names found := by
  induction walks generalizing more with
  | stop => exact .stop
  | up _ ih => exact .up (ih enough)
  | free named short stands => exact .free named short stands
  | down named short stands _ ih => exact .down named short stands (ih enough)
  | file named short stands => exact .file named short stands
  | link unfollowed named short stands => exact .link unfollowed named short stands
  | across named short stands passed _ ih =>
    obtain ⟨more, rfl⟩ : ∃ k, more = k + 1 := ⟨more - 1, by omega⟩
    exact .across named short stands passed (ih (by omega))

/-- A link that does not lead to a directory can be taken away: no way goes across it. -/
theorem Leads.erase {place : Place} {target : String} (leads : Leads t links here names d)
    (below : place ≠ []) (link : t.node? place = some (.link target))
    (unled : ∀ k e, ¬Leads t k (if (Path.anchorOf target).isEmpty then place.dropLast else [])
      (Path.namesOf target) e) : Leads (t.erase place) links here names d := by
  induction leads with
  | stay => exact .stay
  | up _ ih => exact .up ih
  | @down links here d name rest named short stands _ ih =>
    refine .down named short ?_ ih
    rw [node?_erase below, if_neg, stands]
    rintro rfl
    rw [stands] at link
    cases link
  | @across links here d name aim rest named short stands onward ih =>
    refine .across named short ?_ ih
    rw [node?_erase below, if_neg, stands]
    -- Going on from this link, the way would lead through what the link itself leads to.
    rintro rfl
    rw [stands] at link
    cases link
    obtain ⟨e, inner⟩ := leads_of_append (.inr ⟨rfl, _, rfl⟩) onward.walk
    exact unled _ e (by simpa using inner)

/-- A path is steady if it leads to something that is no directory, or to a free place in a
directory that is there. -/
theorem steady_of_find {found : Lookup} (looked : t.find true p = .ok found)
    (outside : ∀ e, found ≠ .present e .directory) : Steady t p := by
  intro made parents place target link
  have above := named_of_makeDirectories parents
  obtain ⟨-, walked⟩ := walk_of_find looked
  rcases List.eq_nil_or_concat' p.names with empty | ⟨names, last, split⟩
  · rw [empty, walk_nil] at walked
    exact absurd (Except.ok.inj walked).symm (outside _)
  rw [split] at walked
  obtain ⟨d, leads⟩ := leads_of_append (.inl (List.cons_ne_nil last [])) walked
  have inside : Leads t linkLimit (t.startOf p.parent) p.parent.names d := by
    rw [names_parent split]
    exact leads
  rw [makeDirectories_of_leads above inside] at parents
  obtain rfl : t = made := Except.ok.inj parents
  obtain ⟨named, short, rfl, stands⟩ := leads.place_of_link split link
  -- What the link leads to is what the path leads to.
  obtain ⟨k, onward⟩ := leads.walk_append true (List.cons_ne_nil last [])
  rw [onward] at walked
  cases k with
  | zero =>
    rw [walk_cons, if_neg named, if_neg short] at walked
    simp [stands] at walked
  | succ k =>
    rw [walk_across named short stands (by simp), List.append_nil] at walked
    have unled (j : Nat) (e : Place) :
        ¬Leads t j (if (Path.anchorOf target).isEmpty then (d ++ [last]).dropLast else [])
          (Path.namesOf target) e := by
      rw [List.dropLast_concat]
      intro inner
      have one := (walks_more (walks_of_walk walked) (Nat.le_max_left k j)).walk
      have other := (walks_more (walks_of_walk inner.walk) (Nat.le_max_right k j)).walk
      rw [one] at other
      exact outside e (Except.ok.inj other)
    rw [find_of_walk above inside.walk]
    exact find_of_walk above (inside.erase (by simp) stands unled).walk

/-- A path is steady if it names nothing once the directories above it have been made. -/
theorem steady_of_vacant (vacant : ∀ made, t.makeDirectories p.parent = .ok made →
    ∃ place, made.find false p = .ok (.absent place)) : Steady t p := by
  intro made parents place target link
  obtain ⟨free, absent⟩ := vacant made parents
  rw [absent] at link
  cases link

end VideoCatalog.FileTree
