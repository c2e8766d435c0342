import Mathlib.Data.List.Infix
import Mathlib.Tactic.Common
import VideoCatalog.Text.LowerCase

/-!
# The lower case of a piece

The lower case of a piece of a text is a piece of the lower case of the text, unless a capital sigma
at an edge of the piece takes another form there than in the text.

* `isFinal`, `lowerOne`, `lowerBetween`: the form of a capital sigma, the lower case of a character,
  and of a piece between two texts.
* `lowerAfter_append`: the lower case of a text in two parts.
* `lowerBetween_congr`: only the forms of capital sigmas depend on what stands around a piece.
* `KeepsSigmas`, `infix_of_keepsSigmas`: capital sigmas with the forms that they have in the whole
  text, and what follows.
* `OpenSigma`, `SelfContained`: capital sigmas at an open edge, and pieces without them.
* `selfContained_iff`: these are the pieces whose lower case is found wherever they stand.
-/

namespace VideoCatalog.Text

variable {u v t before after before' after' : List Char}

/-- The capital sigma. -/
def sigma : Char := '\u03a3'

/-- Whether a capital sigma takes its final form after the reversed text `before` and in front of
`after`. -/
def isFinal (before after : List Char) : Bool := startsCased before && !startsCased after

/-- The lower case of a character, with the form of a capital sigma. -/
def lowerOne (final : Bool) (c : Char) : List Char :=
  if c.toNat = 0x3a3 then if final then [Char.ofNat 0x3c2] else [Char.ofNat 0x3c3]
  else if c.toNat < 0x80 then [c.toLower]
  else lowerTable.apply c

/-- The lower case of a piece of a text, after the reversed text `before` and in front of `after`. -/
def lowerBetween (before after : List Char) : List Char → List Char
  | [] => []
  | c :: t => lowerOne (isFinal before (t ++ after)) c ++ lowerBetween (c :: before) after t

/-! ### Texts in parts -/

theorem lowerAfter_cons (before : List Char) (c : Char) (t : List Char) :
    lowerAfter before (c :: t) = lowerOne (isFinal before t) c ++ lowerAfter (c :: before) t := rfl

theorem lowerAfter_append (before t after : List Char) : lowerAfter before (t ++ after) =
    lowerBetween before after t ++ lowerAfter (t.reverse ++ before) after := by
  induction t generalizing before with
  | nil => rfl
  | cons c t ih =>
    rw [List.cons_append, lowerAfter_cons, ih, lowerBetween, List.append_assoc, List.reverse_cons,
      List.append_assoc, List.singleton_append]

theorem lowerAfter_eq (before t : List Char) : lowerAfter before t = lowerBetween before [] t := by
  simpa [lowerAfter] using lowerAfter_append before t []

theorem lowerBetween_append (before u v after : List Char) :
    lowerBetween before after (u ++ v) =
      lowerBetween before (v ++ after) u ++ lowerBetween (u.reverse ++ before) after v := by
  induction u generalizing before with
  | nil => rfl
  | cons c u ih =>
    rw [List.cons_append, lowerBetween, ih, lowerBetween, List.append_assoc, List.append_assoc,
      List.reverse_cons, List.append_assoc, List.singleton_append]

/-- The lower case of a character that is no capital sigma does not depend on its form. -/
theorem lowerOne_of_ne {c : Char} (other : c ≠ sigma) (f g : Bool) : lowerOne f c = lowerOne g c := by
  have code : c.toNat ≠ 0x3a3 := fun same =>
    other (by rw [← Char.ofNat_toNat c, same]; rfl)
  rw [lowerOne, lowerOne, if_neg code, if_neg code]

theorem lowerOne_sigma (f : Bool) : lowerOne f sigma = [if f then '\u03c2' else '\u03c3'] := by
  cases f <;> rfl

/-- What stands around a piece makes no difference but to the forms of its capital sigmas. -/
theorem lowerBetween_congr (same : ∀ u v, t = u ++ sigma :: v →
    isFinal (u.reverse ++ before) (v ++ after) = isFinal (u.reverse ++ before') (v ++ after')) :
    lowerBetween before after t = lowerBetween before' after' t := by
  induction t generalizing before before' with
  | nil => rfl
  | cons c t ih =>
    have rest : lowerBetween (c :: before) after t = lowerBetween (c :: before') after' t :=
      ih fun u v split => by simpa using same (c :: u) v (by rw [split]; rfl)
    rw [lowerBetween, lowerBetween, rest]
    by_cases capital : c = sigma
    · have form : isFinal before (t ++ after) = isFinal before' (t ++ after') :=
        same [] t (by rw [capital]; rfl)
      rw [form]
    · rw [lowerOne_of_ne capital]

/-! ### The forms of capital sigmas -/

/-- Only case-ignorable characters are passed over. -/
theorem startsCased_append (t after : List Char) :
    startsCased (t ++ after) = if t.all caseIgnorable then startsCased after else startsCased t := by
  induction t with
  | nil => rfl
  | cons c t ih =>
    rw [List.cons_append, startsCased, startsCased, List.all_cons, ih]
    cases caseIgnorable c <;> simp

theorem startsCased_of_ignorable (all : t.all caseIgnorable = true) : startsCased t = false := by
  have passed := startsCased_append t []
  rwa [List.append_nil, all] at passed

/-- The capital sigmas of a piece have the forms that they have in the whole text. -/
def KeepsSigmas (before t after : List Char) : Prop :=
  ∀ u v, t = u ++ sigma :: v →
    isFinal (u.reverse ++ before.reverse) (v ++ after) = isFinal u.reverse v

/-- The lower case of such a piece is found where the piece stands. -/
theorem infix_of_keepsSigmas (kept : KeepsSigmas before t after) :
    lowerAfter [] t <:+: lowerAfter [] (before ++ t ++ after) := by
  have piece : lowerBetween before.reverse after t = lowerAfter [] t := by
    rw [lowerAfter_eq]
    exact lowerBetween_congr fun u v split => by simpa using kept u v split
  refine ⟨lowerBetween [] (t ++ after) before, lowerAfter (t.reverse ++ before.reverse) after, ?_⟩
  rw [List.append_assoc before, lowerAfter_append, List.append_nil, lowerAfter_append, piece,
    List.append_assoc]

/-- The form of a capital sigma after `u` and in front of `v` depends on what stands further away:
nothing before it tells that it ends a word, or nothing after it tells that it does not. -/
def OpenSigma (u v : List Char) : Prop :=
  u.all caseIgnorable = true ∧ startsCased v = false ∨
    startsCased u.reverse = true ∧ v.all caseIgnorable = true

/-- A piece has no capital sigma at an open edge. -/
def SelfContained (t : List Char) : Prop := ∀ u v, t = u ++ sigma :: v → ¬OpenSigma u v

theorem selfContained_iff_forall (t : List Char) : SelfContained t ↔
    ∀ k < t.length, t[k]? = some sigma → ¬OpenSigma (t.take k) (t.drop (k + 1)) := by
  constructor
  · intro closed k within here
    refine closed (t.take k) (t.drop (k + 1)) ?_
    obtain ⟨_, capital⟩ := List.getElem?_eq_some_iff.1 here
    rw [← capital, ← List.drop_eq_getElem_cons within, List.take_append_drop]
  · rintro each u v rfl
    simpa using each u.length (by simp) (by simp)

instance (u v : List Char) : Decidable (OpenSigma u v) :=
  inferInstanceAs (Decidable (_ ∧ _ ∨ _ ∧ _))

instance (t : List Char) : Decidable (SelfContained t) :=
  decidable_of_iff _ (selfContained_iff_forall t).symm

/-- A capital sigma that is not at an open edge has the same form in every text. -/
theorem isFinal_of_not_open (closed : ¬OpenSigma u v) (before after : List Char) :
    isFinal (u.reverse ++ before) (v ++ after) = isFinal u.reverse v := by
  unfold OpenSigma at closed
  rw [isFinal, isFinal, startsCased_append, startsCased_append, List.all_reverse]
  cases ignored : u.all caseIgnorable with
  | true =>
    have nothing : startsCased u.reverse = false :=
      startsCased_of_ignorable (by rw [List.all_reverse, ignored])
    have follows : startsCased v = true := by simpa [ignored, nothing] using closed
    have stops : v.all caseIgnorable = false := by
      refine Bool.eq_false_iff.2 fun all => ?_
      simp [startsCased_of_ignorable all] at follows
    simp [nothing, follows, stops]
  | false =>
    cases cased : startsCased u.reverse with
    | false => simp
    | true =>
      have stops : v.all caseIgnorable = false := by simpa [ignored, cased] using closed
      simp [stops]

theorem SelfContained.keepsSigmas (closed : SelfContained t) (before after : List Char) :
    KeepsSigmas before t after :=
  fun u v split => isFinal_of_not_open (closed u v split) before.reverse after

/-! ### Capital sigmas at an open edge -/

theorem startsCased_cons {c : Char} (plain : caseIgnorable c = false) (t : List Char) :
    startsCased (c :: t) = cased c := by
  rw [startsCased, plain]
  rfl

theorem startsCased_sigma (t : List Char) : startsCased (sigma :: t) = true :=
  (startsCased_cons (by decide +kernel) t).trans (by decide +kernel)

/-- Beyond a capital sigma nothing is looked for. -/
theorem startsCased_append_sigma (t after after' : List Char) :
    startsCased (t ++ sigma :: after) = startsCased (t ++ sigma :: after') := by
  rw [startsCased_append, startsCased_append, startsCased_sigma, startsCased_sigma]

theorem lowerBetween_before_sigma (before t after after' : List Char) :
    lowerBetween before (sigma :: after) t = lowerBetween before (sigma :: after') t :=
  lowerBetween_congr fun _ v _ => by rw [isFinal, isFinal, startsCased_append_sigma v after after']

theorem lowerBetween_after_sigma (before before' t after : List Char) :
    lowerBetween (sigma :: before) after t = lowerBetween (sigma :: before') after t :=
  lowerBetween_congr fun u _ _ => by
    rw [isFinal, isFinal, startsCased_append_sigma u.reverse before before']

/-- A capital sigma is not ignorable. -/
theorem lowerBetween_of_ignorable (all : t.all caseIgnorable = true)
    (before before' after after' : List Char) :
    lowerBetween before after t = lowerBetween before' after' t := by
  refine lowerBetween_congr fun u v split => ?_
  have ignorable : caseIgnorable sigma = true := List.all_eq_true.1 all sigma (by simp [split])
  exact absurd ignorable (by decide +kernel)

theorem lowerBetween_sigma (before after u v : List Char) :
    lowerBetween before after (u ++ sigma :: v) = lowerBetween before (sigma :: v ++ after) u ++
      (if isFinal (u.reverse ++ before) (v ++ after) then '\u03c2' else '\u03c3') ::
        lowerBetween (sigma :: (u.reverse ++ before)) after v := by
  rw [lowerBetween_append, lowerBetween, lowerOne_sigma]
  rfl

/-- The capital alpha. -/
def alpha : Char := '\u0391'

theorem lowerOne_alpha (f : Bool) : lowerOne f alpha = ['\u03b1'] := by
  cases f <;> decide +kernel

theorem startsCased_alpha (t : List Char) : startsCased (alpha :: t) = true :=
  (startsCased_cons (by decide +kernel) t).trans (by decide +kernel)

/-- After a capital alpha, a capital sigma that nothing stands before takes its final form, so that
the other form is missing once. -/
theorem not_infix_of_open_start (ignored : u.all caseIgnorable = true)
    (nothing : startsCased v = false) : ¬lowerAfter [] (u ++ sigma :: v) <:+:
      lowerAfter [] ([alpha] ++ (u ++ sigma :: v) ++ []) := by
  intro found
  have uncased : startsCased u.reverse = false :=
    startsCased_of_ignorable (by rw [List.all_reverse, ignored])
  have form : isFinal (u.reverse ++ []) (v ++ []) = false := by simp [isFinal, uncased]
  have form' : isFinal (u.reverse ++ [alpha]) (v ++ []) = true := by
    rw [isFinal, startsCased_append, List.all_reverse, ignored, List.append_nil, nothing]
    simp [startsCased_alpha]
  rw [List.append_nil, List.singleton_append, lowerAfter_cons, lowerOne_alpha, lowerAfter_eq,
    lowerAfter_eq, lowerBetween_sigma, lowerBetween_sigma, form, form',
    lowerBetween_of_ignorable ignored [alpha] [] _ (sigma :: v ++ []),
    lowerBetween_after_sigma (u.reverse ++ [alpha]) (u.reverse ++ []) v []] at found
  have fewer := found.sublist.count_le '\u03c3'
  simp only [List.append_nil, Bool.false_eq_true, if_false, if_true, List.count_append,
    List.count_cons_self, List.cons_append, List.nil_append, ne_eq, Char.reduceEq,
    not_false_eq_true, List.count_cons_of_ne] at fewer
  omega

/-- In front of a capital alpha, a capital sigma that nothing stands after does not take its final
form, so that this is missing once. -/
theorem not_infix_of_open_end (follows : startsCased u.reverse = true)
    (ignored : v.all caseIgnorable = true) : ¬lowerAfter [] (u ++ sigma :: v) <:+:
      lowerAfter [] ([] ++ (u ++ sigma :: v) ++ [alpha]) := by
  intro found
  have uncased : startsCased v = false := startsCased_of_ignorable ignored
  have form : isFinal (u.reverse ++ []) (v ++ []) = true := by simp [isFinal, follows, uncased]
  have form' : isFinal (u.reverse ++ []) (v ++ [alpha]) = false := by
    rw [isFinal, startsCased_append v, ignored, if_pos rfl, startsCased_alpha, Bool.not_true,
      Bool.and_false]
  rw [List.nil_append, lowerAfter_append [] _ [alpha], lowerAfter_cons, lowerOne_alpha,
    lowerAfter_eq, lowerBetween_sigma, lowerBetween_sigma, form, form',
    lowerBetween_of_ignorable ignored _ (sigma :: (u.reverse ++ [])) [alpha] [],
    List.cons_append, List.cons_append,
    lowerBetween_before_sigma [] u (v ++ [alpha]) (v ++ [])] at found
  have fewer := found.sublist.count_le '\u03c2'
  simp only [List.append_nil, Bool.false_eq_true, if_false, if_true, List.count_append,
    List.count_cons_self, lowerAfter, ne_eq, Char.reduceEq, not_false_eq_true,
    List.count_cons_of_ne, List.count_nil] at fewer
  omega

/-- The pieces without a capital sigma at an open edge are those whose lower case is found in the
lower case of every text that they are a piece of. -/
theorem selfContained_iff (t : List Char) : SelfContained t ↔
    ∀ before after, lowerAfter [] t <:+: lowerAfter [] (before ++ t ++ after) := by
  constructor
  · exact fun closed before after => infix_of_keepsSigmas (closed.keepsSigmas before after)
  · rintro found u v rfl opened
    rcases opened with ⟨ignored, nothing⟩ | ⟨follows, ignored⟩
    · exact not_infix_of_open_start ignored nothing (found [alpha] [])
    · exact not_infix_of_open_end follows ignored (found [] [alpha])

end VideoCatalog.Text
