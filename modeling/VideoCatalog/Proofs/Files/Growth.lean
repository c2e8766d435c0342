import VideoCatalog.Proofs.Files.Settled

/-!
# Trees that only gain

Making directories leaves every file, link and directory where it is, also if it fails midway, and
so does making a file where nothing is.

* `FileTree.Within`: all that stands in a tree stands in another one.
* `Within.walks`, `Within.read`, `Within.settled`: what a path leads to is found there again.
* `FileTree.Grown`: a tree has become another one by new directories alone.
* `grown_madeDirectories`: making directories, whether it succeeds or fails.
* `Extra.within`, `Extra.find_back`: what a path leads to when there is a file more.
* `Extra.grown_remove`: a file that was made and taken away again leaves nothing behind.
-/

namespace VideoCatalog.FileTree

variable {t t' t'' : FileTree} {p : Path} {links : Nat} {here : Place} {names : List String}
  {follow : Bool}

/-! ### What paths lead to -/

/-- All that stands in a tree stands in another one, too. -/
structure Within (t t' : FileTree) : Prop where
  start : ∀ p, t'.startOf p = t.startOf p
  stands : ∀ place node, t.node? place = some node → t'.node? place = some node

/-- A walk that ends at a node ends there still. -/
theorem Within.walks {found : Lookup} (within : Within t t')
    (walks : Walks t follow links here names found) {place : Place} {node : FileNode}
    (present : found = .present place node) : Walks t' follow links here names found := by
  induction walks with
  | stop => exact .stop
  | up _ ih => exact .up (ih present)
  | free => cases present
  | down named short stands _ ih =>
    exact .down named short (within.stands _ _ stands) (ih present)
  | file named short stands => exact .file named short (within.stands _ _ stands)
  | link unfollowed named short stands =>
    exact .link unfollowed named short (within.stands _ _ stands)
  | across named short stands passed _ ih =>
    exact .across named short (within.stands _ _ stands) passed (ih present)

theorem Within.find {place : Place} {node : FileNode} (within : Within t t')
    (found : t.find follow p = .ok (.present place node)) :
    t'.find follow p = .ok (.present place node) := by
  obtain ⟨zero, walked⟩ := walk_of_find found
  refine find_of_walk zero ?_
  rw [within.start]
  exact (within.walks (walks_of_walk walked) rfl).walk

/-- A file that can be read has the same content. -/
theorem Within.read {content : List UInt8} (within : Within t t') (read : t.read p = .ok content) :
    t'.read p = .ok content := by
  obtain ⟨place, modified, found⟩ := find_of_read read
  rw [FileTree.read, state, FileTree.located, within.find found]
  rfl

theorem Within.leads {d : Place} (within : Within t t') (leads : Leads t links here names d) :
    Leads t' links here names d :=
  leads.congr fun _ _ stands _ => within.stands _ _ stands

/-- A file stays where its path leads. -/
theorem Within.settled {content : List UInt8} (within : Within t t')
    (settled : Settled t p content) : Settled t' p content := by
  obtain ⟨zero, above, d, names, last, modified, split, named, short, leads, stands⟩ := settled
  refine ⟨zero, above, d, names, last, modified, split, named, short, ?_, within.stands _ _ stands⟩
  rw [within.start]
  exact within.leads leads

/-! ### New directories -/

/-- Nothing differs but for directories where nothing was. -/
structure Grown (t t' : FileTree) : Prop where
  start : ∀ p, t'.startOf p = t.startOf p
  node : ∀ place, t'.node? place = t.node? place ∨
    t.node? place = none ∧ t'.node? place = some .directory

theorem Grown.refl (t : FileTree) : Grown t t := ⟨fun _ => rfl, fun _ => .inl rfl⟩

theorem Grown.trans (first : Grown t t') (second : Grown t' t'') : Grown t t'' where
  start p := (second.start p).trans (first.start p)
  node place := by
    rcases second.node place with same | ⟨free, made⟩
    · rw [same]
      exact first.node place
    · rcases first.node place with same | ⟨-, made'⟩
      · exact .inr ⟨same.symm.trans free, made⟩
      · rw [made'] at free
        cases free

theorem Grown.within (grown : Grown t t') : Within t t' where
  start := grown.start
  stands place node stands := by
    rcases grown.node place with same | ⟨free, -⟩
    · exact same.trans stands
    · rw [free] at stands
      cases stands

/-- What is no directory stood there before. -/
theorem Grown.stood {place : Place} {node : FileNode} (grown : Grown t t')
    (stands : t'.node? place = some node) (outside : node ≠ .directory) :
    t.node? place = some node := by
  rcases grown.node place with same | ⟨-, made⟩
  · exact same.symm.trans stands
  · rw [made] at stands
    exact absurd (Option.some.inj stands).symm outside

/-! ### Making directories -/

theorem grown_put {place : Place} (below : place ≠ []) (free : t.node? place = none) :
    Grown t (t.put place .directory) where
  start := startOf_put t place .directory
  node other := by
    rw [node?_put below]
    split
    · next same => exact .inr ⟨same ▸ free, rfl⟩
    · exact .inl rfl

theorem grown_makeDirectory (made : t.makeDirectory p = .ok t') : Grown t t' := by
  unfold makeDirectory at made
  split at made
  · cases made
  · cases made
  · next place absent =>
    obtain ⟨below, free⟩ := free_of_walks (walks_of_walk (walk_of_find absent).2) rfl
    rw [← Except.ok.inj made]
    exact grown_put below free

theorem grown_ensureDirectory (made : t.ensureDirectory p = .ok t') : Grown t t' := by
  unfold ensureDirectory at made
  split at made
  · next t₁ made' =>
    rw [← Except.ok.inj made]
    exact grown_makeDirectory made'
  · split at made
    · cases made
    · split at made
      · rw [← Except.ok.inj made]
        exact .refl t
      · cases made
      · cases made

theorem grown_makeNames {anchor : String} {reversed : List String}
    (made : t.makeNames anchor reversed = .ok t') : Grown t t' := by
  induction reversed generalizing t' with
  | nil => exact grown_ensureDirectory made
  | cons name above ih =>
    simp only [makeNames] at made
    split at made
    · next t₁ ensured =>
      rw [← Except.ok.inj made]
      exact grown_ensureDirectory ensured
    · split at made
      · split at made
        · cases made
        · next t₁ parents => exact (ih parents).trans (grown_ensureDirectory made)
      · cases made

theorem grown_makeDirectories (made : t.makeDirectories p = .ok t') : Grown t t' :=
  grown_makeNames made

theorem grown_settle {changed : Except Failure FileTree}
    (grown : ∀ t', changed = .ok t' → Grown t t') : Grown t (t.settle changed).1 := by
  cases changed with
  | error f => exact .refl t
  | ok t' => exact grown t' rfl

theorem grown_madeNames (t : FileTree) (anchor : String) (reversed : List String) :
    Grown t (t.madeNames anchor reversed) := by
  induction reversed with
  | nil => exact grown_settle fun _ => grown_ensureDirectory
  | cons name above ih =>
    simp only [madeNames]
    split
    · next t₁ ensured => exact grown_ensureDirectory ensured
    · split
      · split
        · exact ih
        · next t₁ parents =>
          exact (grown_makeNames parents).trans (grown_settle fun _ => grown_ensureDirectory)
      · exact .refl t

/-- Directories that are made, also if not all of them can be. -/
theorem grown_madeDirectories (t : FileTree) (p : Path) : Grown t (t.madeDirectories p) :=
  grown_madeNames t p.anchor p.names.reverse

/-! ### One file more -/

theorem Extra.within {base : FileTree} {place : Place} {content : List UInt8}
    {modified : Binary64} (extra : Extra base t p place content modified) : Within base t where
  start := extra.start
  stands other node stands := by
    rw [extra.node, if_neg, stands]
    rintro rfl
    rw [extra.free] at stands
    cases stands

/-- A walk has ended where it ends now, or it ends at the file that is new. -/
theorem Extra.walks_back {base : FileTree} {place : Place} {content : List UInt8}
    {modified : Binary64} {found : Lookup} (extra : Extra base t p place content modified)
    (walks : Walks t follow links here names found) :
    Walks base follow links here names found ∨
      Walks base follow links here names (.absent place) := by
  have old {other : Place} {node : FileNode} (stands : t.node? other = some node)
      (new : ∀ c m, node ≠ .file c m) : base.node? other = some node := by
    rw [extra.node] at stands
    split at stands
    · exact absurd (Option.some.inj stands).symm (new _ _)
    · exact stands
  induction walks with
  | stop => exact .inl .stop
  | up _ ih => exact ih.imp .up .up
  | free named short stands =>
    rw [extra.node] at stands
    split at stands
    · cases stands
    · exact .inl (.free named short stands)
  | down named short stands _ ih =>
    have stands := old stands (by simp)
    exact ih.imp (.down named short stands) (.down named short stands)
  | file named short stands =>
    rw [extra.node] at stands
    split at stands
    · next new => exact .inr (new ▸ .free named short (new ▸ extra.free))
    · exact .inl (.file named short stands)
  | link unfollowed named short stands =>
    exact .inl (.link unfollowed named short (old stands (by simp)))
  | across named short stands passed _ ih =>
    have stands := old stands (by simp)
    exact ih.imp (.across named short stands passed) (.across named short stands passed)

theorem Extra.find_back {base : FileTree} {place : Place} {content : List UInt8}
    {modified : Binary64} {found : Lookup} {q : Path}
    (extra : Extra base t p place content modified) (looked : t.find follow q = .ok found) :
    base.find follow q = .ok found ∨ base.find follow q = .ok (.absent place) := by
  obtain ⟨zero, walked⟩ := walk_of_find looked
  rw [extra.start] at walked
  exact (extra.walks_back (walks_of_walk walked)).imp (fun walks => find_of_walk zero walks.walk)
    fun walks => find_of_walk zero walks.walk

/-- A file that is all that was new leaves nothing behind when it is taken away. -/
theorem Extra.grown_remove {base : FileTree} {place : Place} {content : List UInt8}
    {modified : Binary64} (extra : Extra base t p place content modified) :
    Grown base (t.settle (t.remove p)).1 := by
  have removed : t.remove p = .ok (t.erase place) := by
    rw [remove, located, extra.found]
  rw [removed]
  refine ⟨extra.start, fun other => .inl ?_⟩
  dsimp only [settle]
  rw [node?_erase extra.below, extra.node]
  split
  · next same => rw [same, extra.free]
  · rfl

end VideoCatalog.FileTree
