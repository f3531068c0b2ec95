/-
Module: WardleyMaps.Proofs.Statement.OptionRow
Purpose: Components that are written with any options in any order are read back in full.
Main exports: NumberToken, DecoratorToken, ReferenceToken, ComponentOption, OptionRow,
  ComponentLine, readComponent_componentLine
-/
import WardleyMaps.Proofs.Statement.Option
import WardleyMaps.Proofs.Statement.Placed
import WardleyMaps.Proofs.Text.Mark

namespace WardleyMaps

open Text

/-!
The options of a component stand in a row with blanks between them, and each reader searches all of
it. A reader passes over an option that is not its own, because no option holds the keyword of
another one (`ComponentOption.eq_of_holdsWord`), and the blank behind the option ends what the
reader would take for its own. So each option adds to the readings of the row behind it what it says
itself (`SaysOptions.cons`), and a row is read as what its options say (`OptionRow.saysOptions`).
-/

/-! ### Tokens and options -/

/-- A token that denotes a number; there may be blanks around the numeral. -/
structure NumberToken where
  text : Text
  value : Double
  reads : Double.read? (trim text) = some value

/-- A token that names a decorator, in any letter case and perhaps with blanks around it. -/
structure DecoratorToken where
  text : Text
  word : DecoratorWord
  names : (trim text).map foldCase = word.name

/-- The words that begin options. -/
def optionWords : List Text :=
  ["label".toList, "inertia".toList, "evolve".toList, "url".toList]

/-- The text of a reference that holds no options. -/
structure ReferenceToken where
  text : Text
  trimmed : Trimmed text
  ne_nil : text ≠ []
  unbroken : ∀ c ∈ ['(', ')', '['], c ∉ text
  wordless : ∀ word ∈ optionWords, ¬ HoldsWord word text

/-- An option with what it says. Blanks around the maturity of an evolution belong to the row. -/
inductive ComponentOption where
  | label (gap : Text) (x y : NumberToken) (hgap : Blank gap)
  | inertia
  | decorators (group : List DecoratorToken)
  | evolve (gap : Text) (maturity : NumberToken) (hgap : Blank gap) (hne : gap ≠ [])
  | reference (ref : ReferenceToken)

/-- The texts of decorators with commas between them. -/
def groupText (group : List DecoratorToken) : Text :=
  [','].intercalate (group.map DecoratorToken.text)

namespace ComponentOption

/-- The word that an option begins with; decorators begin with a parenthesis. -/
def keyword : ComponentOption → String
  | label _ _ _ _ => "label"
  | inertia => "inertia"
  | decorators _ => ""
  | evolve _ _ _ _ => "evolve"
  | reference _ => "url"

/-- What is written behind the word. -/
def body : ComponentOption → Text
  | label gap x y _ => gap ++ '[' :: (x.text ++ ',' :: y.text ++ [']'])
  | inertia => []
  | decorators group => '(' :: (groupText group ++ [')'])
  | evolve gap maturity _ _ => gap ++ trim maturity.text
  | reference ref => '(' :: (ref.text ++ [')'])

/-- How an option is written. -/
def text (option : ComponentOption) : Text :=
  option.keyword.toList ++ option.body

/-! What an option says. -/

def words : ComponentOption → List DecoratorWord
  | decorators group => group.map DecoratorToken.word
  | _ => []

def givesInertia : ComponentOption → Bool
  | inertia => true
  | decorators group => (group.map DecoratorToken.word).contains .inertia
  | _ => false

def maturity? : ComponentOption → Option Double
  | evolve _ maturity _ _ => some maturity.value
  | _ => none

def offset? : ComponentOption → Option LabelOffset
  | label _ x y _ => some { x := x.value, y := y.value }
  | _ => none

def reference? : ComponentOption → Option Text
  | reference ref => some ref.text
  | _ => none

end ComponentOption

/-! ### The words in an option -/

theorem wordText_of_mem {word : Text} (h : word ∈ optionWords) : WordText word := by
  revert word
  simp only [optionWords, List.forall_mem_cons]
  exact ⟨wordText_label, wordText_inertia, wordText_evolve, wordText_url, by simp⟩

/-- Numerals hold no word that begins an option. -/
theorem not_holdsWord_of_numeralChar {word t : Text} (hword : word ∈ optionWords)
    (ht : ∀ c ∈ t, NumeralChar c ∨ isBlank c = true) : ¬ HoldsWord word t := by
  have hletter : ∀ word ∈ optionWords, 'l' ∈ word ∨ 'n' ∈ word := by
    decide
  have hforeign : ∀ c ∈ ['l', 'n'], ¬ NumeralChar c ∧ isBlank c = false := by
    simp only [NumeralChar, List.forall_mem_cons,
      List.not_mem_nil, false_implies, implies_true, and_true]
    decide +kernel
  obtain ⟨c, hc, hmem⟩ : ∃ c ∈ ['l', 'n'], c ∈ word := by
    simpa using hletter word hword
  obtain ⟨hnumeral, hblank⟩ := hforeign c hc
  intro h
  rcases ht c (h.isInfix.subset hmem) with hnumeral' | hblank'
  · exact hnumeral hnumeral'
  · rw [hblank] at hblank'
    cases hblank'

theorem NumberToken.trim_ne_nil (token : NumberToken) : trim token.text ≠ [] := by
  intro hnil
  have hreads := token.reads
  rw [hnil] at hreads
  cases hreads

theorem NumberToken.break_not_mem (token : NumberToken) :
    ∀ c ∈ breakChars, c ∉ token.text := by
  intro c hc hmem
  have hbreaks := breaks_of_mem c hc
  rcases numeralChar_or_blank token.reads hmem with hnumeral | hblank
  · exact hbreaks.numeral hnumeral
  · rw [hbreaks.blank] at hblank
    cases hblank

theorem NumberToken.not_holdsWord (token : NumberToken) {word : Text} (hword : word ∈ optionWords) :
    ¬ HoldsWord word token.text :=
  not_holdsWord_of_numeralChar hword fun _ hc => numeralChar_or_blank token.reads hc

/-- The only decorator that is a word of an option is `inertia`. -/
theorem DecoratorToken.eq_of_holdsWord {token : DecoratorToken} {word : Text}
    (hword : word ∈ optionWords) (h : HoldsWord word token.text) :
    word = "inertia".toList ∧ token.word = .inertia := by
  have hfold : ∀ word ∈ optionWords, word.map foldCase = word := by
    decide
  have hnames : ∀ name : DecoratorWord, ∀ word ∈ optionWords,
      cut word name.name = none ∨ word = "inertia".toList ∧ name = .inertia := by
    intro name
    cases name <;> decide
  have hinfix := ((holdsWord_trim (wordText_of_mem hword)).2 h).isInfix.map foldCase
  rw [hfold word hword, token.names] at hinfix
  rcases hnames token.word word hword with hnone | hboth
  · exact absurd hinfix (cut_eq_none_iff.1 hnone)
  · exact hboth

/-! ### The decorators of a group -/

theorem DecoratorToken.read (token : DecoratorToken) :
    DecoratorWord.read? token.text = some token.word :=
  DecoratorWord.read?_eq_some_iff.2 token.names

theorem splitOn_groupText {group : List DecoratorToken} (hne : group ≠ []) :
    (groupText group).splitOn ',' = group.map DecoratorToken.text := by
  apply List.splitOn_intercalate
  · intro piece hpiece
    obtain ⟨token, -, rfl⟩ := List.mem_map.1 hpiece
    exact DecoratorWord.break_not_mem token.read ',' (by decide)
  · simpa using hne

theorem close_not_mem_groupText (group : List DecoratorToken) : ')' ∉ groupText group := by
  intro hmem
  have hne : group ≠ [] := by
    rintro rfl
    cases hmem
  obtain ⟨piece, hpiece, hclose⟩ := mem_piece_of_mem hmem (by decide : ')' ≠ ',')
  rw [splitOn_groupText hne] at hpiece
  obtain ⟨token, -, rfl⟩ := List.mem_map.1 hpiece
  exact DecoratorWord.break_not_mem token.read ')' (by decide) hclose

/-- The words of a group are read back from its text. -/
theorem words_of_groupText (group : List DecoratorToken) :
    ((groupText group).splitOn ',').filterMap DecoratorWord.read? =
      group.map DecoratorToken.word := by
  by_cases hne : group = []
  · subst hne
    decide
  · have hread : DecoratorWord.read? ∘ DecoratorToken.text = some ∘ DecoratorToken.word :=
      funext DecoratorToken.read
    rw [splitOn_groupText hne, List.filterMap_map, hread, List.filterMap_eq_map]

namespace ComponentOption

/-- An option holds its own keyword, and decorators may name inertia; other words that begin options
are not in it. -/
theorem eq_of_holdsWord {option : ComponentOption} {word : Text} (hword : word ∈ optionWords)
    (h : HoldsWord word option.text) :
    word = option.keyword.toList ∨ word = "inertia".toList ∧ .inertia ∈ option.words := by
  have hbreak : ∀ c ∈ breakChars, isWord c = false := fun c hc =>
    (breaks_of_mem c hc).word
  have hwordText := wordText_of_mem hword
  have hnil : ¬ HoldsWord word [] := not_holdsWord_of_blank hwordText blank_nil
  cases option with
  | label gap x y hgap =>
      left
      have hshape : text (.label gap x y hgap) = ("label".toList ++ gap) ++ '[' ::
          (x.text ++ ',' :: (y.text ++ ']' :: [])) := by
        simp [text, keyword, body]
      rw [hshape, holdsWord_append_cons hwordText (hbreak '[' (by decide)),
        holdsWord_append_cons hwordText (hbreak ',' (by decide)),
        holdsWord_append_cons hwordText (hbreak ']' (by decide)),
        ← holdsWord_trim hwordText, trim_append_of_blank hgap, holdsWord_trim hwordText] at h
      rcases h with h | h | h | h
      · exact Text.eq_of_holdsWord wordText_label h
      · exact absurd h (x.not_holdsWord hword)
      · exact absurd h (y.not_holdsWord hword)
      · exact absurd h hnil
  | inertia => exact .inl (Text.eq_of_holdsWord wordText_inertia h)
  | decorators group =>
      right
      have hshape : text (.decorators group) = [] ++ '(' :: (groupText group ++ ')' :: []) := rfl
      rw [hshape, holdsWord_append_cons hwordText (hbreak '(' (by decide)),
        holdsWord_append_cons hwordText (hbreak ')' (by decide))] at h
      have hgroup : HoldsWord word (groupText group) :=
        (h.resolve_left hnil).resolve_right hnil
      obtain ⟨piece, hpiece, hholds⟩ :=
        exists_holdsWord_of_intercalate hwordText (hbreak ',' (by decide)) hgroup
      obtain ⟨token, htoken, rfl⟩ := List.mem_map.1 hpiece
      obtain ⟨hinertia, hname⟩ := DecoratorToken.eq_of_holdsWord hword hholds
      exact ⟨hinertia, List.mem_map.2 ⟨token, htoken, hname⟩⟩
  | evolve gap maturity hgap hne =>
      left
      obtain ⟨c, rest, rfl⟩ := List.exists_cons_of_ne_nil hne
      have hc : isWord c = false := isWord_of_isBlank (hgap c List.mem_cons_self)
      have hnumber : ¬ HoldsWord word (rest ++ trim maturity.text) := by
        apply not_holdsWord_of_numeralChar hword
        intro d hd
        rcases List.mem_append.1 hd with hd | hd
        · exact .inr (hgap.tail d hd)
        · exact .inl (numeralChar_of_read? maturity.reads d hd)
      have hshape : text (.evolve (c :: rest) maturity hgap hne) =
          "evolve".toList ++ c :: (rest ++ trim maturity.text) := rfl
      rw [hshape, holdsWord_append_cons hwordText hc, or_iff_left hnumber] at h
      exact Text.eq_of_holdsWord wordText_evolve h
  | reference ref =>
      left
      have hshape : text (.reference ref) = "url".toList ++ '(' :: (ref.text ++ ')' :: []) := rfl
      rw [hshape, holdsWord_append_cons hwordText (hbreak '(' (by decide)),
        holdsWord_append_cons hwordText (hbreak ')' (by decide))] at h
      rcases h with h | h | h
      · exact Text.eq_of_holdsWord wordText_url h
      · exact absurd h (ref.wordless word hword)
      · exact absurd h hnil

/-- What one option says of inertia, in either spelling. -/
theorem contains_words_or_hasInertia (option : ComponentOption) :
    (option.words.contains .inertia || hasInertia option.text) = option.givesInertia := by
  have hmiss : option.keyword.toList ≠ "inertia".toList → .inertia ∉ option.words →
      hasInertia option.text = false := by
    intro hkeyword hwords
    rw [← Bool.not_eq_true, hasInertia_iff]
    intro h
    rcases eq_of_holdsWord (by simp [optionWords]) h with h | ⟨-, h⟩
    · exact hkeyword h.symm
    · exact hwords h
  cases option with
  | inertia => decide
  | decorators group =>
      -- In small letters both readers find it, in others the reader of decorators only.
      by_cases hmem : DecoratorWord.inertia ∈ group.map DecoratorToken.word
      · simp [words, givesInertia, hmem]
      · rw [hmiss (by simp [keyword]) hmem, Bool.or_false]
        rfl
  | _ => exact hmiss (by simp [keyword]) (by simp [words])

/-! ### An option in front of others -/

section

variable {rest : Text} (hrest : ∀ c ∈ rest.head?, isBlank c = true)
include hrest

/-- An option is passed over in the search for the word of another one, inertia apart. -/
theorem findWord_text_append {α : Type} {option : ComponentOption} {word : Text}
    (hword : word ∈ optionWords) (hinertia : word ≠ "inertia".toList)
    (hkeyword : word ≠ option.keyword.toList) {accept : Text → Option α}
    (hstart : ∀ t, startsWord t = true → accept t = none) :
    findWord word accept (option.text ++ rest) = findWord word accept rest := by
  apply findWord_append_of_not_holdsWord (wordText_of_mem hword) hstart _ hrest
  intro h
  rcases eq_of_holdsWord hword h with h | ⟨h, -⟩
  · exact hkeyword h
  · exact hinertia h

theorem hasInertia_text_append (option : ComponentOption) :
    hasInertia (option.text ++ rest) = (hasInertia option.text || hasInertia rest) := by
  cases rest with
  | nil =>
      have hnil : hasInertia [] = false := by decide
      rw [List.append_nil, hnil, Bool.or_false]
  | cons c rest =>
      have hc : isBlank c = true := hrest c rfl
      have hskip : hasInertia ([] ++ c :: rest) = (hasInertia [] || hasInertia rest) :=
        hasInertia_append (isWord_of_isBlank hc) [] rest
      rw [hasInertia_append (isWord_of_isBlank hc)]
      exact congrArg _ hskip.symm

theorem readInlineEvolution_text_append (option : ComponentOption) :
    readInlineEvolution (option.text ++ rest) =
      option.maturity?.or (readInlineEvolution rest) := by
  have hmiss : option.keyword.toList ≠ "evolve".toList →
      readInlineEvolution (option.text ++ rest) = readInlineEvolution rest := by
    intro hkeyword
    exact findWord_text_append hrest (by simp [optionWords]) (by decide) (Ne.symm hkeyword)
      fun _ => numeralAfterBlank?_of_startsWord
  cases option with
  | evolve gap maturity hgap hne =>
      have hscan := numeralAfterBlank?_numeral hgap hne maturity.reads hrest
      have hshape : text (.evolve gap maturity hgap hne) ++ rest =
          "evolve".toList ++ (gap ++ (trim maturity.text ++ rest)) := by
        simp [text, keyword, body]
      rw [hshape]
      exact findWord_of_accept wordText_evolve hscan
  | _ => exact hmiss (by simp [keyword])

theorem givenLabel?_text_append (option : ComponentOption) :
    givenLabel? (option.text ++ rest) = (option.offset?.map some).or (givenLabel? rest) := by
  have hmiss : option.keyword.toList ≠ "label".toList →
      givenLabel? (option.text ++ rest) = givenLabel? rest := by
    intro hkeyword
    rw [givenLabel?, givenLabel?, findWord_text_append hrest (by simp [optionWords]) (by decide)
      (Ne.symm hkeyword) fun _ => labelInside?_of_startsWord]
  cases option with
  | label gap x y hgap =>
      have hpair : readPair "label offset" (x.text ++ ',' :: y.text) = .ok (x.value, y.value) :=
        readPair_of_read? "label offset" x.reads y.reads
      have hbreak : Breaks ']' := breaks_of_mem ']' (by decide)
      have hclosed : ']' ∉ x.text ++ ',' :: y.text :=
        not_mem_of_readPair hpair (by decide) hbreak.numeral hbreak.blank
      have hinside := labelInside?_bracket hgap hclosed rest
      have hshape : text (.label gap x y hgap) ++ rest =
          "label".toList ++ (gap ++ '[' :: ((x.text ++ ',' :: y.text) ++ ']' :: rest)) := by
        simp [text, keyword, body]
      rw [hshape, givenLabel?, findWord_of_accept wordText_label hinside, Option.map_some,
        WardleyMaps.offset?, hpair]
      rfl
  | _ => exact hmiss (by simp [keyword])

theorem readReference_text_append (option : ComponentOption) :
    readReference (option.text ++ rest) = option.reference?.or (readReference rest) := by
  have hmiss : option.keyword.toList ≠ "url".toList →
      readReference (option.text ++ rest) = readReference rest := by
    intro hkeyword
    rw [readReference, readReference, findWord_text_append hrest (by simp [optionWords])
      (by decide) (Ne.symm hkeyword) fun _ => parenthesised?_of_startsWord]
  cases option with
  | reference ref =>
      have hinside : parenthesised? ('(' :: (ref.text ++ ')' :: rest)) = some ref.text := by
        rw [parenthesised?, cutAt_append (ref.unbroken ')' (by simp)), Option.map_some]
      have hshape : text (.reference ref) ++ rest =
          "url".toList ++ '(' :: (ref.text ++ ')' :: rest) := by
        simp [text, keyword, body]
      rw [hshape, readReference, findWord_of_accept wordText_url hinside]
      simp only [trim_eq_self ref.trimmed]
      rw [if_neg (by simp [ref.ne_nil])]
      rfl
  | _ => exact hmiss (by simp [keyword])

theorem parenthesisGroups_of_unopened_append {a : Text} (h : '(' ∉ a) :
    parenthesisGroups (a ++ rest) = parenthesisGroups rest := by
  cases rest with
  | nil => rw [List.append_nil, parenthesisGroups_of_unopened h, parenthesisGroups]
  | cons c rest =>
      have hc : isBlank c = true := hrest c rfl
      rw [parenthesisGroups_append_of_unopened h (not_mem_url_of_isBlank hc)]
      exact (parenthesisGroups_prepend_of_blank (blank_singleton hc) rest).symm

theorem decoratorWords_text_append (option : ComponentOption) :
    decoratorWords (option.text ++ rest) = option.words ++ decoratorWords rest := by
  have hmiss : '(' ∉ option.text → decoratorWords (option.text ++ rest) = decoratorWords rest := by
    intro hunopened
    rw [decoratorWords, parenthesisGroups_of_unopened_append hrest hunopened, decoratorWords]
  cases option with
  | label gap x y hgap =>
      apply hmiss
      have hgap' : '(' ∉ gap := not_mem_of_blank (by decide) hgap
      simp [text, keyword, body, hgap', x.break_not_mem '(' (by decide),
        y.break_not_mem '(' (by decide)]
  | inertia => exact hmiss (by decide)
  | decorators group =>
      have hshape : text (.decorators group) ++ rest =
          '(' :: (groupText group ++ ')' :: rest) := by
        simp [text, keyword, body]
      rw [hshape, decoratorWords, parenthesisGroups_group (close_not_mem_groupText group),
        List.flatMap_cons, List.filterMap_append, words_of_groupText]
      rfl
  | evolve gap maturity hgap hne =>
      apply hmiss
      have hgap' : '(' ∉ gap := not_mem_of_blank (by decide) hgap
      have hnumeral : '(' ∉ trim maturity.text := fun hmem =>
        maturity.break_not_mem '(' (by decide) ((infix_trim maturity.text).subset hmem)
      simp [text, keyword, body, hgap', hnumeral]
  | reference ref =>
      have hshape : text (.reference ref) ++ rest =
          "url(".toList ++ (ref.text ++ ')' :: rest) := by
        simp [text, keyword, body]
      rw [hshape, decoratorWords, parenthesisGroups_url,
        parenthesisGroups_append_of_unopened (ref.unbroken '(' (by simp)) (by decide)]
      rfl

end

/-! ### The ends of an option -/

/-- An option ends in a character that is no blank. -/
theorem exists_last (option : ComponentOption) :
    ∃ start c, option.text = start ++ [c] ∧ isBlank c = false := by
  cases option with
  | label gap x y hgap =>
      exact ⟨"label".toList ++ (gap ++ '[' :: (x.text ++ ',' :: y.text)), ']',
        by simp [text, keyword, body], by decide⟩
  | inertia => exact ⟨"inerti".toList, 'a', rfl, by decide⟩
  | decorators group => exact ⟨'(' :: groupText group, ')', rfl, by decide⟩
  | evolve gap maturity hgap hne =>
      obtain ⟨start, c, hend⟩ :=
        (List.eq_nil_or_concat (trim maturity.text)).resolve_left maturity.trim_ne_nil
      refine ⟨"evolve".toList ++ (gap ++ start), c, by simp [text, keyword, body, hend], ?_⟩
      apply (trimmed_trim maturity.text).last c
      simp [hend]
  | reference ref =>
      exact ⟨"url".toList ++ '(' :: ref.text, ')', by simp [text, keyword, body], by decide⟩

end ComponentOption

/-! ### Rows of options -/

/-- What all readers together find in a tail is what these options say. -/
structure SaysOptions (options : List ComponentOption) (tail : Text) : Prop where
  words : decoratorWords tail = options.flatMap ComponentOption.words
  inertia : ((decoratorWords tail).contains .inertia || hasInertia tail) =
    options.any ComponentOption.givesInertia
  maturity : readInlineEvolution tail = options.findSome? ComponentOption.maturity?
  offset : givenLabel? tail = (options.findSome? ComponentOption.offset?).map some
  reference : readReference tail = options.findSome? ComponentOption.reference?

theorem saysOptions_nil : SaysOptions [] [] where
  words := by simp [decoratorWords, parenthesisGroups]
  inertia := by simp [decoratorWords, parenthesisGroups]; decide
  maturity := rfl
  offset := rfl
  reference := rfl

theorem findSome?_cons_eq_or {α β : Type} (f : α → Option β) (a : α) (l : List α) :
    (a :: l).findSome? f = (f a).or (l.findSome? f) := by
  rw [List.findSome?_cons]
  cases f a <;> rfl

/-- An option adds what it says to the readings of what stands behind it. -/
theorem SaysOptions.cons {options : List ComponentOption} {rest : Text}
    (h : SaysOptions options rest) (hrest : ∀ c ∈ rest.head?, isBlank c = true)
    (option : ComponentOption) : SaysOptions (option :: options) (option.text ++ rest) where
  words := by rw [option.decoratorWords_text_append hrest, h.words, List.flatMap_cons]
  inertia := by
    have hswap : ∀ a b c d : Bool, ((a || b) || (c || d)) = ((a || c) || (b || d)) := by decide
    rw [option.decoratorWords_text_append hrest, option.hasInertia_text_append hrest,
      List.contains_append, hswap, option.contains_words_or_hasInertia, h.inertia, List.any_cons]
  maturity := by
    rw [option.readInlineEvolution_text_append hrest, h.maturity, findSome?_cons_eq_or]
  offset := by
    rw [option.givenLabel?_text_append hrest, h.offset, findSome?_cons_eq_or]
    cases option.offset? <;> rfl
  reference := by
    rw [option.readReference_text_append hrest, h.reference, findSome?_cons_eq_or]

/-- Blanks in front say nothing. -/
theorem SaysOptions.prepend {options : List ComponentOption} {rest : Text}
    (h : SaysOptions options rest) {gap : Text} (hgap : Blank gap) :
    SaysOptions options (gap ++ rest) := by
  have hwords : decoratorWords (gap ++ rest) = decoratorWords rest := by
    rw [decoratorWords, parenthesisGroups_prepend_of_blank hgap, decoratorWords]
  have hinertia : hasInertia (gap ++ rest) = hasInertia rest :=
    congrArg Option.isSome (findWord_prepend_of_blank wordText_inertia _ hgap rest)
  constructor
  · rw [hwords, h.words]
  · rw [hwords, hinertia, h.inertia]
  · rw [← h.maturity]
    exact findWord_prepend_of_blank wordText_evolve _ hgap rest
  · rw [← h.offset, givenLabel?, findWord_prepend_of_blank wordText_label _ hgap, givenLabel?]
  · rw [← h.reference, readReference, findWord_prepend_of_blank wordText_url _ hgap, readReference]

/-- Options in a row, each with the blanks in front of it. -/
structure OptionRow where
  entries : List (Text × ComponentOption)
  blank : ∀ entry ∈ entries, Blank entry.1
  apart : ∀ entry ∈ entries.tail, entry.1 ≠ []

def rowText (entries : List (Text × ComponentOption)) : Text :=
  entries.flatMap fun entry => entry.1 ++ entry.2.text

def OptionRow.options (row : OptionRow) : List ComponentOption :=
  row.entries.map Prod.snd

/-- A row is read as what its options say. -/
theorem OptionRow.saysOptions (row : OptionRow) :
    SaysOptions row.options (rowText row.entries) := by
  obtain ⟨entries, hblank, hapart⟩ := row
  change SaysOptions (entries.map Prod.snd) (rowText entries)
  induction entries with
  | nil => exact saysOptions_nil
  | cons entry others ih =>
      have hothers : ∀ c ∈ (rowText others).head?, isBlank c = true := by
        intro c hc
        cases others with
        | nil => cases hc
        | cons next others =>
            obtain ⟨d, gap, hgap⟩ := List.exists_cons_of_ne_nil (hapart next List.mem_cons_self)
            have hd : isBlank d = true := by
              apply hblank next (by simp)
              rw [hgap]
              exact List.mem_cons_self
            rw [rowText, List.flatMap_cons, hgap] at hc
            exact Option.some.inj hc ▸ hd
      have htail := ih (fun other hother => hblank other (List.mem_cons_of_mem _ hother))
        fun other hother => hapart other (List.mem_of_mem_tail hother)
      have hrow : rowText (entry :: others) = entry.1 ++ (entry.2.text ++ rowText others) := by
        rw [rowText, List.flatMap_cons, List.append_assoc]
        rfl
      rw [hrow]
      exact (htail.cons hothers entry.2).prepend (hblank entry List.mem_cons_self)

/-- Behind a character that is no blank, a row ends in one. -/
theorem last_rowText (entries : List (Text × ComponentOption)) {c : Char} (hc : isBlank c = false) :
    ∀ d ∈ (c :: rowText entries).getLast?, isBlank d = false := by
  intro d hd
  cases entries using List.reverseRecOn with
  | nil => exact Option.some.inj hd ▸ hc
  | append_singleton others entry =>
      obtain ⟨start, e, hlast, he⟩ := entry.2.exists_last
      have hrow : c :: rowText (others ++ [entry]) =
          (c :: (rowText others ++ entry.1 ++ start)) ++ [e] := by
        simp [rowText, hlast]
      rw [hrow, List.getLast?_concat] at hd
      exact Option.some.inj hd ▸ he

/-! ### Components with a row of options -/

/-- The parts of a statement `component` or `submap`. -/
structure ComponentLine where
  submap : Bool
  lead : Text
  gap : Text
  name : Text
  space : Text
  visibility : NumberToken
  maturity : NumberToken
  row : OptionRow
  trail : Text
  blank : Blank lead ∧ Blank gap ∧ Blank space ∧ Blank trail
  gap_ne_nil : gap ≠ []
  trimmed : Trimmed name
  ne_nil : name ≠ []
  unopened : '[' ∉ name

namespace ComponentLine

/-- What stands between the brackets of the statement. -/
def inside (line : ComponentLine) : Text :=
  line.visibility.text ++ ',' :: line.maturity.text

/-- What stands in front of the brackets, without the blanks at the beginning. -/
def front (line : ComponentLine) : Text :=
  (componentKeyword line.submap).toList ++ line.gap ++ line.name ++ line.space

/-- The statement as it is written. -/
def text (line : ComponentLine) : Text :=
  line.lead ++ (line.front ++ '[' :: line.inside ++ ']' :: rowText line.row.entries) ++ line.trail

/-- The component that the parts of the statement make up. -/
def component (line : ComponentLine) (number : Nat) : Component :=
  let reading := DecoratorReading.ofWords (line.row.options.flatMap ComponentOption.words)
  { line := number
    name := line.name
    position := { visibility := line.visibility.value, maturity := line.maturity.value }
    inertia := line.row.options.any ComponentOption.givesInertia
    evolveTo := line.row.options.findSome? ComponentOption.maturity?
    label := (line.row.options.findSome? ComponentOption.offset?).getD
      (LabelOffset.standard.spread reading.spacing)
    decorators := reading.decorators
    labelSpacing := reading.spacing
    reference := line.row.options.findSome? ComponentOption.reference?
    submap := line.submap }

theorem readPair_inside (line : ComponentLine) (field : String) :
    readPair field line.inside = .ok (line.visibility.value, line.maturity.value) :=
  readPair_of_read? field line.visibility.reads line.maturity.reads

theorem declaration (line : ComponentLine) :
    Declaration (componentKeyword line.submap).toList line.name line.front line.inside
      (rowText line.row.entries) line.text := by
  obtain ⟨hlead, hgap, hspace, htrail⟩ := line.blank
  have hkeyword : Token (componentKeyword line.submap).toList := by
    cases line.submap <;> decide
  have hbreak : Breaks ']' := breaks_of_mem ']' (by decide)
  have hclosed : ']' ∉ line.inside :=
    not_mem_of_readPair (line.readPair_inside "") (by decide) hbreak.numeral hbreak.blank
  have htrimmed :
      Trimmed (line.front ++ '[' :: line.inside ++ ']' :: rowText line.row.entries) := by
    constructor
    · intro c hc
      obtain ⟨d, ds, hcons⟩ := List.exists_cons_of_ne_nil hkeyword.ne_nil
      apply hkeyword.trimmed.head c
      rw [front, hcons] at hc
      rw [hcons]
      exact hc
    · intro c hc
      rw [List.getLast?_append_cons] at hc
      exact last_rowText line.row.entries hbreak.blank c hc
  exact ⟨⟨⟨line.gap, line.space, rfl, hgap, line.gap_ne_nil, hspace⟩, line.trimmed, line.ne_nil,
    line.unopened⟩, trim_surrounded hlead htrimmed htrail, hclosed⟩

end ComponentLine

/-- A component with any options in any order is read back in full. -/
theorem readComponent_componentLine (line : ComponentLine) (number : Nat) :
    readComponent line.submap number line.text = .ok (line.component number) := by
  have htail := line.row.saysOptions
  have hposition : readPosition (componentKeyword line.submap ++ " coordinates") line.inside =
      .ok { visibility := line.visibility.value, maturity := line.maturity.value } := by
    rw [readPosition, line.readPair_inside]
    rfl
  have hplaced := line.declaration.readPlaced hposition
  have hlabel : readLabel (readDecorators (rowText line.row.entries)).spacing
      (rowText line.row.entries) = .ok (line.component number).label := by
    rw [readLabel_eq_ok, htail.offset, readDecorators_eq, htail.words, ComponentLine.component]
    cases line.row.options.findSome? ComponentOption.offset? <;> rfl
  refine readComponent_eq_ok.2 ⟨_, _, hplaced, line.ne_nil, hlabel, ?_⟩
  simp only [Placed.component, ComponentLine.component, readDecorators_eq, htail.words,
    htail.maturity, htail.reference]
  rw [← htail.inertia, htail.words]
  rfl

/-- A submap with decorators, an evolution and a reference. -/
def teaShop : ComponentLine where
  submap := true
  lead := []
  gap := [' ']
  name := "Tea shop".toList
  space := [' ']
  visibility := { text := "0.1".toList, value := 0.1, reads := by decide +kernel }
  maturity := { text := " .2".toList, value := 0.2, reads := by decide +kernel }
  row :=
    { entries :=
        [([' '], .decorators
            [{ text := "Market".toList, word := .market, names := by decide },
             { text := " inertia".toList, word := .inertia, names := by decide }]),
         ([' '], .evolve [' '] { text := "8e-1".toList, value := 0.8, reads := by decide +kernel }
            (by decide) (by decide)),
         ([' '], .reference
            { text := "a, b".toList
              trimmed := by decide
              ne_nil := by decide
              unbroken := by simp
              wordless := by
                intro word hword
                rw [holdsWord_iff (wordText_of_mem hword).ne_nil, not_not]
                revert word
                decide })]
      blank := by decide
      apart := by decide }
  trail := []
  blank := by decide
  gap_ne_nil := by decide
  trimmed := by decide
  ne_nil := by decide
  unopened := by decide

/-- Its decorators spread the label, and one of them is inertia. -/
theorem readComponent_componentLine_teaShop :
    readComponent true 3
        "submap Tea shop [0.1, .2] (Market, inertia) evolve 8e-1 url(a, b)".toList =
      .ok
        { line := 3
          name := "Tea shop".toList
          position := { visibility := 0.1, maturity := 0.2 }
          inertia := true
          evolveTo := some 0.8
          label := { x := 10, y := -20 }
          decorators := { market := true }
          labelSpacing := 2
          reference := some "a, b".toList
          submap := true } := by
  have hread := readComponent_componentLine teaShop 3
  have htext : teaShop.text =
      "submap Tea shop [0.1, .2] (Market, inertia) evolve 8e-1 url(a, b)".toList := by
    decide
  rw [htext] at hread
  refine hread.trans ?_
  decide +kernel

end WardleyMaps
