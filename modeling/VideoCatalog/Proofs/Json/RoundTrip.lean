import Mathlib.Tactic.Common
import VideoCatalog.Json.Reader
import VideoCatalog.Json.Writer

/-!
# Documents are read as they were written

* `readText_escapeCode`: an escape for a character by its number, or by a pair of units, is undone.
* `readText_quoted`: reading undoes the escapes of a text, whatever is left unescaped.
* `Stored`: the values that documents of the store are made of, with a bound on their depth.
* `readItems_write`, `readMembers_write`: lists and mappings, one item or member after another.
* `parse_document`: a whole document.
-/

namespace VideoCatalog.Json

variable {alphabet : Alphabet}

/-! ### Escapes -/

/-- Four digits are enough below 65536. -/
theorem hexDigits_four {n : Nat} (small : n < 0x10000) : Text.hexDigits 4 n =
    [Nat.digitChar (n / 0x1000), Nat.digitChar (n / 0x100 % 0x10),
      Nat.digitChar (n / 0x10 % 0x10), Nat.digitChar (n % 0x10)] := by
  have digits (m : Nat) := Nat.toDigits_eq_if (n := m) (b := 0x10) (by decide)
  have zero : Nat.digitChar 0 = '0' := rfl
  have second : n / 0x10 / 0x10 = n / 0x100 := by omega
  have third : n / 0x100 / 0x10 = n / 0x1000 := by omega
  unfold Text.hexDigits
  -- Each digit that is missing stands for a zero.
  by_cases one : n < 0x10
  · rw [digits, if_pos one, show n / 0x1000 = 0 by omega, show n / 0x100 = 0 by omega,
      show n / 0x10 = 0 by omega, Nat.mod_eq_of_lt one]
    rfl
  by_cases two : n < 0x100
  · rw [digits, if_neg one, digits, if_pos (by omega), show n / 0x1000 = 0 by omega,
      show n / 0x100 = 0 by omega, Nat.mod_eq_of_lt (a := n / 0x10) (by omega)]
    rfl
  by_cases three : n < 0x1000
  · rw [digits, if_neg one, digits, if_neg (by omega), second, digits, if_pos (by omega),
      show n / 0x1000 = 0 by omega, Nat.mod_eq_of_lt (a := n / 0x100) (by omega)]
    rfl
  · rw [digits, if_neg one, digits, if_neg (by omega), second, digits, if_neg (by omega), third,
      digits, if_pos (by omega)]
    rfl

theorem hexValue?_digitChar : ∀ d < 0x10, hexValue? (Nat.digitChar d) = some d := by decide

theorem readUnit_hexDigits {n : Nat} (small : n < 0x10000) {more : List Char}
    (follows : more ≠ []) : readUnit (Text.hexDigits 4 n ++ more) = some (n, more) := by
  obtain ⟨next, rest, rfl⟩ := List.exists_cons_of_ne_nil follows
  have value : hexNumber? [Nat.digitChar (n / 0x1000), Nat.digitChar (n / 0x100 % 0x10),
      Nat.digitChar (n / 0x10 % 0x10), Nat.digitChar (n % 0x10)] = some n := by
    simp only [hexNumber?, List.foldlM_cons, List.foldlM_nil, bind, Option.bind, pure,
      hexValue?_digitChar (n / 0x1000) (by omega),
      hexValue?_digitChar (n / 0x100 % 0x10) (by omega),
      hexValue?_digitChar (n / 0x10 % 0x10) (by omega), hexValue?_digitChar (n % 0x10) (by omega),
      Option.map_some]
    congr 1
    omega
  rw [hexDigits_four small]
  simp [readUnit, value]

/-- The escape of a code unit that needs no partner is read as its character. -/
theorem readCode_unit {n : Nat} (small : n < 0x10000) (alone : n < 0xd800 ∨ 0xdfff < n)
    {more : List Char} (follows : more ≠ []) :
    readCode (Text.hexDigits 4 n ++ more) = some (Char.ofNat n, more) := by
  have low : ¬(0xd800 ≤ n ∧ n < 0xdc00) := by omega
  have high : ¬(0xdc00 ≤ n ∧ n < 0xe000) := by omega
  simp only [readCode, readUnit_hexDigits small follows, low, high, if_false]

/-- Two code units that belong together are read as one character. -/
theorem readCode_pair {high low n : Nat} (first : 0xd800 ≤ high ∧ high < 0xdc00)
    (second : 0xdc00 ≤ low ∧ low < 0xe000)
    (whole : 0x10000 + (high - 0xd800) * 0x400 + (low - 0xdc00) = n) {more : List Char}
    (follows : more ≠ []) :
    readCode (Text.hexDigits 4 high ++ (escapeUnit low ++ more)) = some (Char.ofNat n, more) := by
  have goes_on : escapeUnit low ++ more ≠ [] := nofun
  have unit := readUnit_hexDigits (n := high) (by omega) goes_on
  have partner := readUnit_hexDigits (n := low) (by omega) follows
  rw [readCode, unit]
  simp only [escapeUnit, List.cons_append, partner]
  rw [if_pos first, if_pos second, whole]

section

variable (start fuel : Nat) (done : List Char) {more : List Char} (follows : more ≠ [])

include follows

theorem readText_escapeUnit {c : Char} (small : c.toNat < 0x10000) :
    readText start (fuel + 1) done (escapeUnit c.toNat ++ more) =
      readText start fuel (c :: done) more := by
  have valid : c.toNat < 0xd800 ∨ 0xdfff < c.toNat ∧ c.toNat < 0x110000 := c.valid
  have read := readCode_unit small (valid.imp_right And.left) follows
  simp only [escapeUnit, List.cons_append, readText, read, Char.ofNat_toNat]

theorem readText_escapePair {c : Char} {high low : Nat} (first : 0xd800 ≤ high ∧ high < 0xdc00)
    (second : 0xdc00 ≤ low ∧ low < 0xe000)
    (whole : 0x10000 + (high - 0xd800) * 0x400 + (low - 0xdc00) = c.toNat) :
    readText start (fuel + 1) done (escapeUnit high ++ (escapeUnit low ++ more)) =
      readText start fuel (c :: done) more := by
  have read := readCode_pair first second whole follows
  rw [escapeUnit]
  simp only [List.cons_append, readText, read, Char.ofNat_toNat]

/-- A character outside ASCII is read from its one or two escapes. -/
theorem readText_escapeCode (c : Char) :
    readText start (fuel + 1) done (escapeCode c.toNat ++ more) =
      readText start fuel (c :: done) more := by
  have valid : c.toNat < 0xd800 ∨ 0xdfff < c.toNat ∧ c.toNat < 0x110000 := c.valid
  rw [escapeCode]
  split
  · next small => exact readText_escapeUnit start fuel done follows small
  · next large =>
    rw [List.append_assoc]
    exact readText_escapePair start fuel done follows (by omega) (by omega) (by omega)

end

/-! ### Texts -/

theorem readText_plain {c : Char} (quote : c ≠ '"') (slash : c ≠ '\\') (plain : ¬c.toNat < 0x20)
    (start fuel : Nat) (done more : List Char) :
    readText start (fuel + 1) done (c :: more) = readText start fuel (c :: done) more := by
  rw [readText.eq_def]
  dsimp only
  split
  · next h => cases h
  · next rest h => exact absurd (List.cons.inj h).1 quote
  · next rest h => exact absurd (List.cons.inj h).1 slash
  · next e rest _ h => exact absurd (List.cons.inj h).1 slash
  · next _ _ _ h =>
    obtain ⟨rfl, rfl⟩ := List.cons.inj h
    rw [if_neg plain]

theorem readText_escape (start fuel : Nat) (done : List Char) (c : Char) {more : List Char}
    (follows : more ≠ []) :
    readText start (fuel + 1) done (escapeChar alphabet c ++ more) =
      readText start fuel (c :: done) more := by
  unfold escapeChar
  -- Seven characters have short escapes, the other controls have long ones.
  split
  · next same => rw [same]; rfl
  split
  · next same => rw [same]; rfl
  split
  · next same => rw [same]; rfl
  split
  · next same => rw [same]; rfl
  split
  · next same => rw [same]; rfl
  split
  · next same => rw [← Char.ofNat_toNat c, same]; rfl
  split
  · next same => rw [← Char.ofNat_toNat c, same]; rfl
  split
  · next control => exact readText_escapeUnit start fuel done follows (by omega)
  split
  · exact readText_escapeCode start fuel done follows c
  · next quote slash _ _ _ _ _ plain _ =>
    exact readText_plain quote slash plain start fuel done more

theorem length_le_flatMap (alphabet : Alphabet) (text : List Char) :
    text.length ≤ (text.flatMap (escapeChar alphabet)).length := by
  induction text with
  | nil => exact Nat.le_refl _
  | cons c rest ih =>
    have nonempty : 0 < (escapeChar alphabet c).length := by
      unfold escapeChar escapeCode
      split
      · exact Nat.succ_pos _
      repeat (split; · exact Nat.succ_pos _)
      split
      · split <;> exact Nat.succ_pos _
      · exact Nat.succ_pos _
    rw [List.flatMap_cons, List.length_append, List.length_cons]
    omega

/-- Reading a text undoes its escapes. -/
theorem readText_flatMap (text : List Char) (start : Nat) {fuel : Nat}
    (enough : text.length < fuel) (done more : List Char) :
    readText start fuel done (text.flatMap (escapeChar alphabet) ++ '"' :: more) =
      .ok (String.ofList (done.reverse ++ text), more) := by
  induction text generalizing fuel done with
  | nil =>
    obtain ⟨fuel, rfl⟩ : ∃ k, fuel = k + 1 := ⟨fuel - 1, by simp at enough; omega⟩
    simp [readText]
  | cons c rest ih =>
    obtain ⟨fuel, rfl⟩ : ∃ k, fuel = k + 1 := ⟨fuel - 1, by simp at enough; omega⟩
    rw [List.flatMap_cons, List.append_assoc, readText_escape start fuel done c (by simp),
      ih (by simpa using enough), List.reverse_cons, List.append_assoc]
    rfl

/-- A text between quotes is read up to the closing one. -/
theorem readText_quoted (alphabet : Alphabet) (s : String) (more : List Char) :
    ∃ body, quoted alphabet s.toList ++ more = '"' :: body ∧
      readText (body.length + 1) (body.length + 1) [] body = .ok (s, more) := by
  refine ⟨s.toList.flatMap (escapeChar alphabet) ++ '"' :: more, by simp [quoted], ?_⟩
  have long := length_le_flatMap alphabet s.toList
  rw [readText_flatMap s.toList _ (by simp only [List.length_append, List.length_cons]; omega)]
  simp

/-! ### What follows a value -/

/-- The end of a document, or what follows a value inside it. -/
def Ends (rest : List Char) : Prop := rest = [] ∨ ∃ more, rest = ',' :: more ∨ rest = '\n' :: more

theorem ends_newline (depth : Nat) (more : List Char) : Ends (newline depth ++ more) :=
  .inr ⟨_, .inr rfl⟩

theorem skip_of_not_blank {c : Char} (plain : isBlank c = false) (rest : List Char) :
    skip (c :: rest) = c :: rest := by
  rw [skip, List.dropWhile_cons, if_neg (by simp [plain])]

theorem skip_newline (depth : Nat) (rest : List Char) :
    skip (newline depth ++ rest) = skip rest := by
  have spaces (k : Nat) : skip (List.replicate k ' ' ++ rest) = skip rest := by
    induction k with
    | zero => rfl
    | succ k ih => exact ih
  exact spaces (2 * depth)

theorem ends_writeItems (alphabet : Alphabet) (depth level : Nat) (items : List Value)
    (more : List Char) :
    Ends (writeItems alphabet depth items ++ (newline level ++ more)) := by
  cases items with
  | nil => exact ends_newline level more
  | cons v rest => exact .inr ⟨_, .inl rfl⟩

theorem ends_writeMembers (alphabet : Alphabet) (depth level : Nat)
    (members : List (Value × Value)) (more : List Char) :
    Ends (writeMembers alphabet depth members ++ (newline level ++ more)) := by
  cases members with
  | nil => exact ends_newline level more
  | cons e rest => exact .inr ⟨_, .inl rfl⟩

/-! ### Values -/

/-- The values of documents of the store, with the levels of nesting that they need. -/
inductive Stored : Nat → Value → Prop
  | one {depth : Nat} : Stored depth (.int 1)
  | text {depth : Nat} (s : String) : Stored depth (.text s)
  | list {depth : Nat} {items : List Value} (all : ∀ v ∈ items, Stored depth v) :
      Stored (depth + 1) (.list items)
  | record {depth : Nat} {entries : List (String × Value)} (keys : (entries.map (·.1)).Nodup)
      (all : ∀ e ∈ entries, Stored depth e.2) : Stored (depth + 1) (.record entries)

/-- A value is read as it was written, whatever may follow it. -/
def Reads (alphabet : Alphabet) (depth : Nat) (v : Value) : Prop :=
  ∀ level fuel rest, Ends rest → 2 * (write alphabet level v ++ rest).length < fuel →
    readValue fuel depth (write alphabet level v ++ rest) = .ok (v, rest)

/-- What is written for a value starts with something that is no blank, closes nothing and is no
mark of an order. -/
theorem write_start {depth : Nat} {v : Value} (stored : Stored depth v) (level : Nat) :
    ∃ c rest, write alphabet level v = c :: rest ∧ isBlank c = false ∧ c ≠ ']' ∧
      c ≠ orderMark := by
  cases stored with
  | one => exact ⟨'1', [], rfl, by decide, by decide, by decide⟩
  | text s => exact ⟨'"', _, rfl, by decide, by decide, by decide⟩
  | @list _ items =>
    cases items with
    | nil => exact ⟨'[', _, rfl, by decide, by decide, by decide⟩
    | cons v rest => exact ⟨'[', _, rfl, by decide, by decide, by decide⟩
  | @record _ entries =>
    cases entries with
    | nil => exact ⟨'\x7b', _, rfl, by decide, by decide, by decide⟩
    | cons e rest => exact ⟨'\x7b', _, rfl, by decide, by decide, by decide⟩

theorem skip_write {depth : Nat} {v : Value} (stored : Stored depth v) (level : Nat)
    (rest : List Char) :
    skip (write alphabet level v ++ rest) = write alphabet level v ++ rest := by
  obtain ⟨c, more, written, plain, -, -⟩ := write_start stored level
  rw [written, List.cons_append, skip_of_not_blank plain]

theorem reads_one (depth : Nat) : Reads alphabet depth (.int 1) := by
  intro level fuel rest ends enough
  obtain ⟨fuel, rfl⟩ : ∃ k, fuel = k + 1 := ⟨fuel - 1, by omega⟩
  have written : write alphabet level (.int 1) = ['1'] := rfl
  rw [written]
  rcases ends with rfl | ⟨more, rfl | rfl⟩ <;> rfl

theorem reads_text (depth : Nat) (s : String) : Reads alphabet depth (.text s) := by
  intro level fuel rest _ enough
  obtain ⟨fuel, rfl⟩ : ∃ k, fuel = k + 1 := ⟨fuel - 1, by omega⟩
  have written : write alphabet level (.text s) = quoted alphabet s.toList := rfl
  obtain ⟨body, shape, read⟩ := readText_quoted alphabet s rest
  rw [written, shape, readValue]
  simp only [read]

/-- The items of a list are read one after another. -/
theorem readItems_write {depth : Nat} (level outer : Nat) (v : Value) (vs : List Value)
    (stored : ∀ w ∈ v :: vs, Stored depth w) (reads : ∀ w ∈ v :: vs, Reads alphabet depth w)
    (fuel : Nat) (done : List Value) (rest : List Char)
    (enough : 2 * (write alphabet level v ++ (writeItems alphabet level vs ++
      (newline outer ++ ']' :: rest))).length + 1 < fuel) :
    readItems fuel depth done (write alphabet level v ++ (writeItems alphabet level vs ++
      (newline outer ++ ']' :: rest))) = .ok (.list (done.reverse ++ v :: vs), rest) := by
  -- Each item uses up one unit of the fuel and at least two characters of the text.
  induction vs generalizing v fuel done with
  | nil =>
    obtain ⟨fuel, rfl⟩ : ∃ k, fuel = k + 1 := ⟨fuel - 1, by omega⟩
    have value := reads v List.mem_cons_self level fuel _
      (ends_writeItems alphabet level outer [] (']' :: rest)) (by omega)
    have closing : skip (writeItems alphabet level [] ++ (newline outer ++ ']' :: rest)) =
        ']' :: rest := by
      rw [writeItems, List.nil_append, skip_newline]
      rfl
    rw [readItems, value]
    simp only [closing, List.reverse_cons]
  | cons w ws ih =>
    obtain ⟨fuel, rfl⟩ : ∃ k, fuel = k + 1 := ⟨fuel - 1, by omega⟩
    have value := reads v List.mem_cons_self level fuel _
      (ends_writeItems alphabet level outer (w :: ws) (']' :: rest)) (by omega)
    have comma : skip (writeItems alphabet level (w :: ws) ++ (newline outer ++ ']' :: rest)) =
        ',' :: (newline level ++ (write alphabet level w ++ (writeItems alphabet level ws ++
          (newline outer ++ ']' :: rest)))) := by
      simp only [writeItems, List.cons_append, List.append_assoc]
      exact skip_of_not_blank (by decide) _
    have next : skip (newline level ++ (write alphabet level w ++ (writeItems alphabet level ws ++
        (newline outer ++ ']' :: rest)))) = write alphabet level w ++
          (writeItems alphabet level ws ++ (newline outer ++ ']' :: rest)) := by
      rw [skip_newline]
      exact skip_write (stored w (by simp)) level _
    rw [readItems, value]
    simp only [comma, next]
    rw [ih w (fun u mem => stored u (List.mem_cons_of_mem _ mem))
      (fun u mem => reads u (List.mem_cons_of_mem _ mem)) fuel (v :: done) (by
        simp only [writeItems, newline, List.length_append, List.length_cons] at enough ⊢
        omega)]
    simp

theorem reads_list {depth : Nat} {items : List Value} (stored : ∀ v ∈ items, Stored depth v)
    (reads : ∀ v ∈ items, Reads alphabet depth v) : Reads alphabet (depth + 1) (.list items) := by
  intro level fuel rest _ enough
  obtain ⟨fuel, rfl⟩ : ∃ k, fuel = k + 1 := ⟨fuel - 1, by omega⟩
  cases items with
  | nil => rfl
  | cons v vs =>
    have shape : write alphabet level (.list (v :: vs)) ++ rest =
        '[' :: (newline (level + 1) ++ (write alphabet (level + 1) v ++
          (writeItems alphabet (level + 1) vs ++ (newline level ++ ']' :: rest)))) := by
      simp [write]
    have inner : skip (newline (level + 1) ++ (write alphabet (level + 1) v ++
        (writeItems alphabet (level + 1) vs ++ (newline level ++ ']' :: rest)))) =
          write alphabet (level + 1) v ++
            (writeItems alphabet (level + 1) vs ++ (newline level ++ ']' :: rest)) := by
      rw [skip_newline]
      exact skip_write (stored v List.mem_cons_self) _ _
    rw [shape] at enough ⊢
    obtain ⟨c, more, written, -, opens, -⟩ := write_start (stored v List.mem_cons_self) (level + 1)
    have items := readItems_write (level + 1) level v vs stored reads fuel [] rest (by
      simp only [newline, List.length_append, List.length_cons] at enough ⊢
      omega)
    rw [readValue, inner]
    split
    · next after closed =>
      rw [written] at closed
      exact absurd (List.cons.inj closed).1 opens
    · simpa using items

/-- A member under a text key. -/
def member (e : String × Value) : Value × Value := (.text e.1, e.2)

/-- A new key goes last. -/
theorem insert_member {entries : List (String × Value)} {key : String} (v : Value)
    (fresh : key ∉ entries.map (·.1)) :
    Value.insert (.text key) v (entries.map member) = (entries ++ [(key, v)]).map member := by
  have absent : (entries.map member).any (·.1.sameKey (.text key)) = false := by
    refine List.any_eq_false.2 fun e mem same => ?_
    obtain ⟨entry, among, rfl⟩ := List.mem_map.1 mem
    have equal : entry.1 = key := by simpa [member, Value.sameKey] using same
    exact fresh (equal ▸ List.mem_map_of_mem among)
  rw [Value.insert, absent]
  simp [member]

/-- What is written for a member. -/
def writeMember (alphabet : Alphabet) (level : Nat) (e : String × Value) : List Char :=
  quoted alphabet e.1.toList ++ ':' :: ' ' :: write alphabet level e.2

theorem writeMembers_cons (level : Nat) (e : String × Value) (es : List (String × Value)) :
    writeMembers alphabet level ((e :: es).map member) =
      ',' :: (newline level ++ (writeMember alphabet level e ++
        writeMembers alphabet level (es.map member))) := by
  simp [writeMembers, member, writeMember, Value.plain]

theorem skip_writeMember (alphabet : Alphabet) (level : Nat) (e : String × Value)
    (rest : List Char) :
    skip (writeMember alphabet level e ++ rest) = writeMember alphabet level e ++ rest :=
  skip_of_not_blank (by decide) _

/-- One member is read, and then the mapping ends or the next member follows. -/
theorem readMembers_step {depth : Nat} (level : Nat) {e : String × Value}
    {before : List (String × Value)} (fresh : e.1 ∉ before.map (·.1))
    (stored : Stored depth e.2) (reads : Reads alphabet depth e.2) (fuel : Nat) {more : List Char}
    (ends : Ends more) (enough : 2 * (writeMember alphabet level e ++ more).length < fuel) :
    (∀ after, skip more = '\x7d' :: after →
      readMembers (fuel + 1) depth (before.map member) (writeMember alphabet level e ++ more) =
        .ok (.map ((before ++ [e]).map member), after)) ∧
    (∀ after, skip more = ',' :: after →
      readMembers (fuel + 1) depth (before.map member) (writeMember alphabet level e ++ more) =
        readMembers fuel depth ((before ++ [e]).map member) (skip after)) := by
  obtain ⟨key, v⟩ := e
  obtain ⟨body, shape, read⟩ :=
    readText_quoted alphabet key (':' :: ' ' :: (write alphabet level v ++ more))
  have whole : writeMember alphabet level (key, v) ++ more = '"' :: body := by
    rw [← shape]
    simp [writeMember]
  have colon : skip (':' :: ' ' :: (write alphabet level v ++ more)) =
      ':' :: ' ' :: (write alphabet level v ++ more) := skip_of_not_blank (by decide) _
  have blank : skip (' ' :: (write alphabet level v ++ more)) =
      write alphabet level v ++ more := skip_write stored level more
  have value := reads level fuel more ends (by
    simp only [writeMember, List.length_append, List.length_cons] at enough ⊢
    omega)
  constructor
  · intro after closing
    rw [whole, readMembers]
    simp only [read, colon, blank, value, insert_member v fresh, closing]
  · intro after comma
    rw [whole, readMembers]
    simp only [read, colon, blank, value, insert_member v fresh, comma]

theorem fresh_of_nodup {before es : List (String × Value)} {e : String × Value}
    (keys : ((before ++ e :: es).map (·.1)).Nodup) : e.1 ∉ before.map (·.1) := by
  rw [List.map_append, List.nodup_append] at keys
  exact fun mem => keys.2.2 _ mem _ List.mem_cons_self rfl

/-- The members of a mapping are read one after another. -/
theorem readMembers_write {depth : Nat} (level outer : Nat) (e : String × Value)
    (es before : List (String × Value)) (keys : ((before ++ e :: es).map (·.1)).Nodup)
    (stored : ∀ m ∈ e :: es, Stored depth m.2) (reads : ∀ m ∈ e :: es, Reads alphabet depth m.2)
    (fuel : Nat) (rest : List Char)
    (enough : 2 * (writeMember alphabet level e ++ (writeMembers alphabet level (es.map member) ++
      (newline outer ++ '\x7d' :: rest))).length + 1 < fuel) :
    readMembers fuel depth (before.map member) (writeMember alphabet level e ++
      (writeMembers alphabet level (es.map member) ++ (newline outer ++ '\x7d' :: rest))) =
        .ok (.map ((before ++ e :: es).map member), rest) := by
  induction es generalizing e before fuel with
  | nil =>
    obtain ⟨fuel, rfl⟩ : ∃ k, fuel = k + 1 := ⟨fuel - 1, by omega⟩
    have fresh := fresh_of_nodup keys
    have closing : skip (writeMembers alphabet level (([] : List (String × Value)).map member) ++
        (newline outer ++ '\x7d' :: rest)) = '\x7d' :: rest := by
      rw [List.map_nil, writeMembers, List.nil_append, skip_newline]
      exact skip_of_not_blank (by decide) rest
    exact (readMembers_step level fresh (stored e List.mem_cons_self) (reads e List.mem_cons_self)
      fuel (ends_writeMembers alphabet level outer _ _) (by omega)).1 rest closing
  | cons f fs ih =>
    obtain ⟨fuel, rfl⟩ : ∃ k, fuel = k + 1 := ⟨fuel - 1, by omega⟩
    have fresh := fresh_of_nodup keys
    have comma : skip (writeMembers alphabet level ((f :: fs).map member) ++
        (newline outer ++ '\x7d' :: rest)) =
          ',' :: (newline level ++ (writeMember alphabet level f ++ (writeMembers alphabet level
            (fs.map member) ++ (newline outer ++ '\x7d' :: rest)))) := by
      rw [writeMembers_cons]
      simp only [List.cons_append, List.append_assoc]
      exact skip_of_not_blank (by decide) _
    have next : skip (newline level ++ (writeMember alphabet level f ++
        (writeMembers alphabet level (fs.map member) ++ (newline outer ++ '\x7d' :: rest)))) =
          writeMember alphabet level f ++
            (writeMembers alphabet level (fs.map member) ++ (newline outer ++ '\x7d' :: rest)) := by
      rw [skip_newline]
      exact skip_writeMember alphabet level f _
    rw [(readMembers_step level fresh (stored e List.mem_cons_self) (reads e List.mem_cons_self)
      fuel (ends_writeMembers alphabet level outer _ _) (by omega)).2 _ comma]
    rw [next, ih f (before ++ [e]) (by simpa using keys)
      (fun m mem => stored m (List.mem_cons_of_mem _ mem))
      (fun m mem => reads m (List.mem_cons_of_mem _ mem)) fuel (by
        rw [writeMembers_cons] at enough
        simp only [newline, List.length_append, List.length_cons] at enough ⊢
        omega)]
    simp

theorem reads_record {depth : Nat} {entries : List (String × Value)}
    (keys : (entries.map (·.1)).Nodup) (stored : ∀ e ∈ entries, Stored depth e.2)
    (reads : ∀ e ∈ entries, Reads alphabet depth e.2) :
    Reads alphabet (depth + 1) (.record entries) := by
  intro level fuel rest _ enough
  obtain ⟨fuel, rfl⟩ : ∃ k, fuel = k + 1 := ⟨fuel - 1, by omega⟩
  cases entries with
  | nil => rfl
  | cons e es =>
    have shape : write alphabet level (.record (e :: es)) ++ rest =
        '\x7b' :: (newline (level + 1) ++ (writeMember alphabet (level + 1) e ++
          (writeMembers alphabet (level + 1) (es.map member) ++
            (newline level ++ '\x7d' :: rest)))) := by
      show write alphabet level (.map ((.text e.1, e.2) :: es.map member)) ++ rest = _
      simp [write, writeMember, Value.plain]
    have inner : skip (newline (level + 1) ++ (writeMember alphabet (level + 1) e ++
        (writeMembers alphabet (level + 1) (es.map member) ++
          (newline level ++ '\x7d' :: rest)))) =
        writeMember alphabet (level + 1) e ++ (writeMembers alphabet (level + 1) (es.map member) ++
          (newline level ++ '\x7d' :: rest)) := by
      rw [skip_newline]
      exact skip_writeMember _ _ _ _
    rw [shape] at enough ⊢
    have members := readMembers_write (level + 1) level e es [] (by simpa using keys) stored reads
      fuel rest (by
        simp only [newline, List.length_append, List.length_cons] at enough ⊢
        omega)
    rw [readValue, inner]
    split
    · next after closed => cases closed
    · exact members

/-- Every value of a document is read as it was written. -/
theorem reads_of_stored {depth : Nat} {v : Value} (stored : Stored depth v) :
    Reads alphabet depth v := by
  induction stored with
  | one => exact reads_one _
  | text s => exact reads_text _ s
  | list all ih => exact reads_list all ih
  | record keys all ih => exact reads_record keys all ih

/-- A whole document is read as it was written. -/
theorem parse_document {v : Value} (stored : Stored depthLimit v) :
    parse (document alphabet v) = .ok v := by
  have reads : Reads alphabet depthLimit v := reads_of_stored stored
  have read := reads 0 (2 * (write alphabet 0 v).length + 2) [] (.inl rfl)
    (by rw [List.append_nil]; omega)
  have start : skip (write alphabet 0 v ++ []) = write alphabet 0 v ++ [] := skip_write stored 0 []
  obtain ⟨c, more, written, -, -, unmarked⟩ := @write_start alphabet _ _ stored 0
  have plain : (write alphabet 0 v).head? ≠ some orderMark := by simpa [written] using unmarked
  rw [List.append_nil] at read start
  simp only [parse, document, String.toList_ofList]
  rw [if_neg plain, start, read]
  rfl

end VideoCatalog.Json
