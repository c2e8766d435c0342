import VideoCatalog.CommandLine.Request

/-!
# Words that ask for an edit of tags

Words without a dash are no options, and words behind a separator are none either. Without options
all words go to the positions of a grammar.

* `Undashed`, `EditWords`: words that are no options, and the words for an edit.
* `Grammar.wordsOf_undashed`, `Grammar.wordsOf_separated`: what words are.
* `Parsed.fill_word`: a position takes a word.
* `Parsed.run_of_plain`, `Grammar.parse_of_plain`: words without an option.
* `parse_of_editWords`: the request that the words for an edit make.
-/

namespace VideoCatalog.CommandLine

/-- A word without a dash at its start. -/
def Undashed (word : String) : Prop := word.toList.head? ≠ some '-'

/-- Words that ask for something to be done with a path and a tag: these have no dash at their
start, or stand behind a separator. -/
inductive EditWords (action : TagsAction) (path tag : String) : List String → Prop
  | plain (named : Undashed path) (tagged : Undashed tag) :
      EditWords action path tag ["tags", action.name, path, tag]
  | separated (named : path ≠ separatorText) (tagged : tag ≠ separatorText) :
      EditWords action path tag ["tags", action.name, separatorText, path, tag]

theorem Undashed.ne_separator {word : String} (undashed : Undashed word) :
    word ≠ separatorText := by
  rintro rfl
  exact undashed rfl

theorem undashed_name (action : TagsAction) : Undashed action.name := by
  cases action <;> exact nofun

namespace Grammar

variable {g : Grammar}

/-- A word as one that is plain. -/
def plainWord (text : String) : Word := ⟨text, .plain⟩

theorem markOf_undashed {word : String} (undashed : Undashed word) :
    g.markOf word = .ok .plain := by
  unfold markOf
  split
  · rfl
  · rfl
  · next rest _ shape => exact absurd (by rw [shape]; rfl) undashed
  · rfl

/-- Words without a dash are plain, whatever comes behind them. -/
theorem wordsOf_append {args : List String} (undashed : ∀ word ∈ args, Undashed word)
    (rest : List String) :
    g.wordsOf (args ++ rest) = (g.wordsOf rest).map (args.map plainWord ++ ·) := by
  induction args with
  | nil =>
    rw [List.nil_append]
    cases g.wordsOf rest <;> rfl
  | cons word args ih =>
    have first := undashed word List.mem_cons_self
    rw [List.cons_append, wordsOf, if_neg first.ne_separator, markOf_undashed first,
      ih fun other mem => undashed other (List.mem_cons_of_mem _ mem)]
    cases g.wordsOf rest <;> rfl

theorem wordsOf_undashed {args : List String} (undashed : ∀ word ∈ args, Undashed word) :
    g.wordsOf args = .ok (args.map plainWord) := by
  have split := wordsOf_append (g := g) undashed []
  rw [List.append_nil] at split
  rw [split, wordsOf]
  exact congrArg Except.ok (List.append_nil _)

/-- Whatever comes behind a separator is plain, too. -/
theorem wordsOf_separated (args rest : List String) (undashed : ∀ word ∈ args, Undashed word) :
    g.wordsOf (args ++ separatorText :: rest) =
      .ok (args.map plainWord ++ ⟨separatorText, .separator⟩ :: rest.map plainWord) :=
  wordsOf_append undashed _

end Grammar

/-- Without an option the positions take as many words as they can, and the others are left
over. -/
theorem Parsed.run_of_plain {g : Grammar} {words : List Word}
    (plain : words.any Word.isOption = false) (fuel : Nat) (s : Parsed) :
    Parsed.run g (fuel + 1) words s = (s.fill words s.positions).map fun filled =>
      { filled.1 with extras := filled.1.extras ++ filled.2.map (·.text) } := by
  unfold Parsed.run
  split
  · simp [Word.isOption] at plain
  · rw [plain]
    cases s.fill words s.positions <;> rfl

/-- An argument for one word, given the word and maybe a separator, has the value of the word. -/
theorem Argument.valueOf_word {a : Argument} {texts : List String} {text : String} {v : Value}
    (single : a.arity = .one ∨ a.arity = .optional) (word : texts.erase separatorText = [text])
    (reads : a.read text = some v) : a.valueOf texts = .ok v := by
  have read : (a.readAll [text]).map (·.headD .null) = .ok v := by
    rw [readAll, reads]
    rfl
  unfold valueOf
  rcases single with arity | arity <;> (rw [arity]; dsimp only; rw [word]; exact read)

/-- A position for one word takes the word in front, and the separator behind it. -/
theorem Parsed.fill_word {s : Parsed} {a : Argument} {words : List Word} {more : List Argument}
    {n : Nat} {text : String} {v : Value} (single : a.arity = .one ∨ a.arity = .optional)
    (count : a.count? words = some n)
    (word : ((words.take n).map (·.text)).erase separatorText = [text])
    (reads : a.read text = some v) :
    s.fill words (a :: more) =
      { s with values := (a.dest, v) :: s.values }.fill (words.drop n) more := by
  have put : s.put a ((words.take n).map (·.text)) =
      .ok { s with values := (a.dest, v) :: s.values } := by
    unfold Parsed.put
    rw [Argument.valueOf_word single word reads]
    rcases single with arity | arity <;> rw [arity] <;> rfl
  rw [Parsed.fill, count]
  dsimp only
  rw [put]

/-- If the positions take all words, their values are what is read. -/
theorem Grammar.parse_of_plain {g : Grammar} {args : List String} {words : List Word}
    {s : Parsed} (are : g.wordsOf args = .ok words) (plain : words.any Word.isOption = false)
    (filled : ({ positions := g.positions } : Parsed).fill words g.positions = .ok (s, []))
    (done : s.positions = []) : g.parse args = .ok s := by
  have ran : Parsed.run g (2 * words.length + 2) words { positions := g.positions } = .ok s := by
    rw [Parsed.run_of_plain plain, filled]
    simp [Except.map]
  rw [parse, are]
  dsimp only
  rw [ran]
  dsimp only
  rw [done]
  rfl

/-! ### The words for an edit -/

section Edits

open Grammar

variable {action : TagsAction} {path tag : String}

/-- What has been read of the words for an edit. -/
def parsedEdit (action : TagsAction) (path tag : String) : Parsed where
  positions := []
  values := [("tag", .text tag), ("path", .text path), ("action", .text action.name)]

theorem ofParsed?_parsedEdit :
    TagsRequest.ofParsed? (parsedEdit action path tag) = some ⟨action, some path, some tag⟩ := by
  unfold TagsRequest.ofParsed?
  simp [parsedEdit, Grammar.value, List.lookup_cons, textOf?]

/-- The positions of an edit take a word each, and the first one the separator behind it. -/
theorem parse_edit {between : List Word} {args : List String}
    (known : between = [] ∨ between = [⟨separatorText, .separator⟩])
    (are : tagsGrammar.wordsOf args =
      .ok (plainWord action.name :: between ++ [plainWord path, plainWord tag]))
    (named : path ≠ separatorText) (tagged : tag ≠ separatorText) :
    tagsGrammar.parse args = .ok (parsedEdit action path tag) := by
  have offered : readChoice (TagsAction.all.map (·.name)) action.name =
      some (.text action.name) := by cases action <;> rfl
  have first (s : Parsed) (more : List Argument) : s.fill
      (plainWord action.name :: between ++ [plainWord path, plainWord tag])
      (⟨"action", .one, readChoice (TagsAction.all.map (·.name)), .null⟩ :: more) =
      { s with values := ("action", .text action.name) :: s.values }.fill
        [plainWord path, plainWord tag] more := by
    rcases known with rfl | rfl
    · exact Parsed.fill_word (n := 1) (.inl rfl) rfl
        (List.erase_of_not_mem (by simp [plainWord, (undashed_name action).ne_separator.symm]))
        offered
    · exact Parsed.fill_word (n := 2) (.inl rfl) rfl
        (by cases action <;> rfl) offered
  refine parse_of_plain are (by rcases known with rfl | rfl <;> rfl) ?_ rfl
  rw [tagsGrammar]
  dsimp only
  rw [first, Parsed.fill_word (n := 1) (.inr rfl) rfl
      (List.erase_of_not_mem (by simpa [plainWord] using named.symm)) rfl,
    Parsed.fill_word (n := 1) (.inr rfl) rfl
      (List.erase_of_not_mem (by simpa [plainWord] using tagged.symm)) rfl]
  rfl

/-- The position of a command takes all words, those behind a separator included. -/
theorem parse_command {words : List Word} {args : List String}
    (are : programGrammar.wordsOf ("tags" :: args) = .ok (plainWord "tags" :: words))
    (plain : words.any Word.isOption = false) (texts : words.map (·.text) = args) :
    programGrammar.parse ("tags" :: args) =
      .ok { positions := [], values := [("command", .list (("tags" :: args).map .text))] } := by
  refine parse_of_plain are (by simpa [plainWord, Word.isOption] using plain) ?_ rfl
  rw [programGrammar]
  dsimp only
  rw [Parsed.fill, show Argument.count? _ _ = some (words.length + 1) from rfl, ← texts]
  simp [Parsed.put, Argument.valueOf, Argument.readAll, Parsed.fill, plainWord, readChoice,
    commandNames, Except.map]

theorem parse_of_parsed {args : List String}
    (split : programGrammar.parse ("tags" :: args) =
      .ok { positions := [], values := [("command", .list (("tags" :: args).map .text))] })
    (edit : tagsGrammar.parse args = .ok (parsedEdit action path tag)) :
    Request.parse ("tags" :: args) = .ok ⟨.null, .tags ⟨action, some path, some tag⟩⟩ := by
  have command : Command.parse ("tags" :: args) =
      .ok (.tags ⟨action, some path, some tag⟩, []) := by
    rw [Command.parse, edit]
    · dsimp only
      rw [ofParsed?_parsedEdit]
      rfl
    · decide
  have texts : textsOf? (.list (("tags" :: args).map .text)) = some ("tags" :: args) := by
    simp [textsOf?, textOf?, Function.comp_def]
  rw [Request.parse, split]
  dsimp only
  rw [show programGrammar.value _ "command" = .list (("tags" :: args).map .text) from rfl, texts,
    Option.getD_some, command]
  rfl

/-- The words for an edit ask for that edit, under the settings file that is there. -/
theorem parse_of_editWords {words : List String} (edit : EditWords action path tag words) :
    Request.parse words = .ok ⟨.null, .tags ⟨action, some path, some tag⟩⟩ := by
  have command : Undashed "tags" := nofun
  have name := undashed_name action
  cases edit with
  | plain named tagged =>
    refine parse_of_parsed
      (parse_command (wordsOf_undashed (by simp [command, name, named, tagged])) rfl rfl)
      (parse_edit (.inl rfl) (wordsOf_undashed (by simp [name, named, tagged]))
        named.ne_separator tagged.ne_separator)
  | separated named tagged =>
    refine parse_of_parsed
      (parse_command (wordsOf_separated ["tags", action.name] [path, tag]
        (by simp [command, name])) rfl rfl)
      (parse_edit (.inr rfl) (wordsOf_separated [action.name] [path, tag] (by simp [name]))
        named tagged)

end Edits

end VideoCatalog.CommandLine
