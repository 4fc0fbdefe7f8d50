import PersonalTrade.Data.InstrumentSync
import PersonalTrade.Library.Markers
import PersonalTrade.Library.Regex

/-!
# News tagging

The matchers of `intelligence/news/tagging.py`: an article is tagged with the instruments whose
symbol or company name it contains. The legal suffix of a name is stripped before it is matched.
-/

namespace PersonalTrade

/-- The suffixes in the pattern `_SUFFIX_RE`. -/
def suffixes : List Text :=
  ["ltd".toList, "limited".toList, "inc".toList, "incorporated".toList, "plc".toList]

/-- What `re` and `str` know about characters: word characters, white space, and which character
of a text `re.IGNORECASE` takes for one of a pattern. -/
structure CharTables where
  isWord : Char → Bool
  isSpace : Char → Bool
  sameCase : Char → Char → Bool
  word_not_space : ∀ char, isWord char = true → isSpace char = false
  blank : isSpace ' ' = true
  period : isWord '.' = false ∧ isSpace '.' = false
  letters : ∀ suffix ∈ suffixes, ∀ letter ∈ suffix, ∀ char, sameCase letter char = true →
    isWord char = true

namespace CharTables

variable (tables : CharTables)

theorem blank_not_word : tables.isWord ' ' = false := by
  by_contra word
  rw [Bool.not_eq_false] at word
  have space := tables.word_not_space ' ' word
  rw [tables.blank] at space
  cases space

/-- `_SUFFIX_RE`. -/
def suffixRe : Regex Char :=
  .seq .boundary (.seq (.anyOf (suffixes.map (.literal tables.sameCase)))
    (.seq (.optional (.char (· == '.'))) .boundary))

def split (text : Text) : List Text := (text.splitOnP tables.isSpace).filter (· ≠ [])

/-- `_normalize_name`. -/
def normalizeName (name : Text) : Text :=
  [' '].intercalate (tables.split (tables.suffixRe.sub tables.isWord (fun _ => []) name))

end CharTables

/-- `_Matcher`. -/
structure Matcher where
  instrumentId : ℕ
  symbolPattern : Regex Char
  namePattern : Option (Regex Char)

/-- The pattern for the name of an instrument. -/
def namePattern (tables : CharTables) (name : Option String) : Option (Regex Char) :=
  match name with
  | none => none
  | some name =>
      if name.isEmpty then none
      else
        let normalized := tables.normalizeName name.toList
        if normalized.isEmpty then none else some (.delimited tables.sameCase normalized)

/-- `build_matchers`, for rows with their primary keys. -/
def buildMatchers (tables : CharTables) (instruments : List (ℕ × InstrumentRow)) : List Matcher :=
  instruments.map fun (id, row) =>
    ⟨id, .delimited (· == ·) row.symbol.toList, namePattern tables row.name⟩

/-- A matcher finds its instrument in a text. -/
def Matcher.finds (tables : CharTables) (text : Text) (matcher : Matcher) : Bool :=
  matcher.symbolPattern.search tables.isWord text ||
    matcher.namePattern.any (·.search tables.isWord text)

/-- `tag_instruments`. -/
def tagInstruments (tables : CharTables) (text : Text) (matchers : List Matcher) : List ℕ :=
  (matchers.filter (·.finds tables text)).map Matcher.instrumentId

/-- A word that the pattern takes for one of its suffixes. -/
def CharTables.IsSuffix (tables : CharTables) (suffix word : Text) : Prop :=
  List.Forall₂ (tables.sameCase · ·) suffix word

instance (tables : CharTables) (suffix word : Text) : Decidable (tables.IsSuffix suffix word) :=
  inferInstanceAs (Decidable (List.Forall₂ _ _ _))

/-- A word that the pattern removes. -/
def CharTables.removes (tables : CharTables) (word : Text) : Bool :=
  suffixes.any fun suffix => tables.IsSuffix suffix word

/-- The suffixes of a legal name. -/
def legalSuffixes : List Text := ["ltd".toList, "limited".toList, "inc".toList, "plc".toList]

/-- The name of a company: the words of its base name, and perhaps a legal suffix, with or without
a period. -/
structure CompanyName (tables : CharTables) where
  base : List Text
  suffix : Option (Text × Bool)
  nonempty : base ≠ []
  words : ∀ word ∈ base, word ≠ [] ∧ ∀ char ∈ word, tables.isWord char = true
  noSuffix : ∀ word ∈ base, ∀ suffix ∈ legalSuffixes, ¬ tables.IsSuffix suffix word
  legal : ∀ last ∈ suffix, ∃ suffix ∈ legalSuffixes, tables.IsSuffix suffix last.1

namespace CompanyName

variable {tables : CharTables} (name : CompanyName tables)

/-- The base name. -/
def baseText : Text := [' '].intercalate name.base

/-- The name as the instrument master has it. -/
def text : Text :=
  match name.suffix with
  | none => name.baseText
  | some (suffix, period) => name.baseText ++ ' ' :: suffix ++ if period then ['.'] else []

/-- The suffix has a period. -/
def HasPeriod : Prop := ∃ suffix, name.suffix = some (suffix, true)

/-- The base name occurs in a text in any case, delimited by other characters than those of words
or by the ends of the text. -/
def OccursIn (text : Text) : Prop :=
  ∃ left found right, text = left ++ (found ++ right) ∧
    List.Forall₂ (fun char other => tables.sameCase char other = true ∧
      tables.isWord other = tables.isWord char) name.baseText found ∧
    left.getLast?.any tables.isWord = false ∧ right.head?.any tables.isWord = false

end CompanyName

section Removal

variable {tables : CharTables} {before : Option Char} {word tail : Text}

/-- What follows a word of a name. -/
def Stops (tail : Text) : Prop := tail = [] ∨ tail = ['.'] ∨ ∃ rest, tail = ' ' :: rest

theorem Stops.not_word (stops : Stops tail) (tables : CharTables) :
    tail.head?.any tables.isWord = false := by
  rcases stops with rfl | rfl | ⟨rest, rfl⟩
  · rfl
  · exact tables.period.1
  · exact tables.blank_not_word

theorem suffix_ne_nil : ∀ suffix ∈ suffixes, suffix ≠ [] := by decide

/-- What is taken for a suffix has word characters only. -/
theorem CharTables.IsSuffix.isWord {suffix matched : Text} (mem : suffix ∈ suffixes)
    (pairs : tables.IsSuffix suffix matched) : ∀ char ∈ matched, tables.isWord char = true := by
  intro char charMem
  have letters := tables.letters suffix mem
  clear mem
  induction pairs with
  | nil => cases charMem
  | cons same _ ih =>
      rcases List.mem_cons.mp charMem with rfl | charMem
      · exact letters _ (.head _) _ same
      · exact ih charMem fun letter letterMem => letters letter (.tail _ letterMem)

/-- A word ends with a word character. -/
theorem any_getLast?_isWord (before : Option Char) (nonempty : word ≠ [])
    (chars : ∀ char ∈ word, tables.isWord char = true) :
    ((word.getLast?).or before).any tables.isWord = true := by
  rw [List.getLast?_eq_some_getLast nonempty, Option.some_or, Option.any_some]
  exact chars _ (List.getLast_mem nonempty)

theorem removes_iff : tables.removes word = true ↔ ∃ suffix ∈ suffixes, tables.IsSuffix suffix word := by
  simp [CharTables.removes]

/-- A match starts at a word boundary with one of the suffixes. -/
theorem mem_ends_suffixRe {rest : Text} {place : Place Char} :
    place ∈ tables.suffixRe.ends tables.isWord ⟨before, rest⟩ ↔
      Place.isBoundary tables.isWord ⟨before, rest⟩ = true ∧
        ∃ suffix ∈ suffixes, ∃ matched others, rest = matched ++ others ∧
          tables.IsSuffix suffix matched ∧ place.isBoundary tables.isWord = true ∧
          (others = '.' :: place.rest ∧ place = ⟨some '.', place.rest⟩ ∨
            place = Regex.placeAfter before matched others) := by
  rw [CharTables.suffixRe, Regex.mem_ends_seq]
  constructor
  · rintro ⟨_, opened, mem⟩
    rcases Regex.mem_ends_boundary.mp opened with ⟨opens, rfl⟩
    rcases Regex.mem_ends_seq.mp mem with ⟨middle, mem, others⟩
    rcases Regex.mem_ends_anyOf.mp mem with ⟨_, pattern, mem⟩
    rcases List.mem_map.mp pattern with ⟨suffix, suffixMem, rfl⟩
    rcases Regex.mem_ends_literal.mp mem with ⟨matched, split, pairs, here⟩
    rcases Regex.mem_ends_seq.mp others with ⟨_, optional, closed⟩
    rcases Regex.mem_ends_boundary.mp closed with ⟨closes, rfl⟩
    refine ⟨opens, suffix, suffixMem, matched, middle.rest, split, pairs, closes, ?_⟩
    rcases Regex.mem_ends_optional.mp optional with period | rfl
    · rcases Regex.mem_ends_char.mp period with ⟨head, next, accepted, after⟩
      obtain rfl := beq_iff_eq.mp accepted
      exact .inl ⟨next, after⟩
    · exact .inr here
  · rintro ⟨opens, suffix, suffixMem, matched, others, rfl, pairs, closes, passed⟩
    refine ⟨_, Regex.mem_ends_boundary.mpr ⟨opens, rfl⟩, Regex.mem_ends_seq.mpr ?_⟩
    refine ⟨Regex.placeAfter before matched others, Regex.mem_ends_anyOf.mpr ?_, ?_⟩
    · exact ⟨_, List.mem_map.mpr ⟨suffix, suffixMem, rfl⟩,
        Regex.mem_ends_literal.mpr ⟨matched, rfl, pairs, rfl⟩⟩
    · refine Regex.mem_ends_seq.mpr ⟨place, Regex.mem_ends_optional.mpr ?_,
        Regex.mem_ends_boundary.mpr ⟨closes, rfl⟩⟩
      rcases passed with ⟨next, after⟩ | after
      · exact .inl (Regex.mem_ends_char.mpr ⟨'.', next, rfl, after⟩)
      · exact .inr after

/-- Inside a word nothing is matched. -/
theorem ends_suffixRe_inside {head : Char} {rest : Text} (inside : before.any tables.isWord = true)
    (char : tables.isWord head = true) :
    tables.suffixRe.ends tables.isWord ⟨before, head :: rest⟩ = [] := by
  rw [List.eq_nil_iff_forall_not_mem]
  intro place mem
  have opens := (mem_ends_suffixRe.mp mem).1
  simp [Place.isBoundary, inside, char] at opens

/-- Nothing that is matched starts outside a word. -/
theorem ends_suffixRe_outside {head : Char} {rest : Text} (char : tables.isWord head = false) :
    tables.suffixRe.ends tables.isWord ⟨before, head :: rest⟩ = [] := by
  rw [List.eq_nil_iff_forall_not_mem]
  intro place mem
  rcases (mem_ends_suffixRe.mp mem).2 with ⟨suffix, suffixMem, matched, others, split, pairs, -, -⟩
  rcases pairs with _ | ⟨same, pairs⟩
  · exact suffix_ne_nil [] suffixMem rfl
  · rw [List.cons_append, List.cons.injEq] at split
    have word := tables.letters _ suffixMem _ (.head _) _ same
    rw [← split.1, char] at word
    cases word

/-- At the start of a word the pattern matches the whole word or nothing. -/
theorem mem_ends_suffixRe_word (outside : before.any tables.isWord = false) (nonempty : word ≠ [])
    (chars : ∀ char ∈ word, tables.isWord char = true) (stops : Stops tail) {place : Place Char} :
    place ∈ tables.suffixRe.ends tables.isWord ⟨before, word ++ tail⟩ ↔
      tables.removes word = true ∧ place = Regex.placeAfter before word tail := by
  rw [mem_ends_suffixRe, removes_iff]
  constructor
  · rintro ⟨-, suffix, suffixMem, matched, others, split, pairs, closes, passed⟩
    have matchedChars := pairs.isWord suffixMem
    -- the match does not go on after the word
    have within : ∃ remaining, word = matched ++ remaining ∧ others = remaining ++ tail := by
      rcases List.append_eq_append_iff.mp split with ⟨more, rfl, rfl⟩ | ⟨remaining, rfl, rfl⟩
      · rcases more with _ | ⟨head, more⟩
        · exact ⟨[], by simp, rfl⟩
        · have stopped := stops.not_word tables
          rw [List.cons_append, List.head?_cons, Option.any_some, matchedChars head (by simp)]
            at stopped
          cases stopped
      · exact ⟨remaining, rfl, rfl⟩
    rcases within with ⟨remaining, rfl, rfl⟩
    have nonemptyMatch : matched ≠ [] := by
      rintro rfl
      cases pairs
      exact suffix_ne_nil [] suffixMem rfl
    rcases passed with ⟨next, after⟩ | after
    · exfalso
      rcases remaining with _ | ⟨head, remaining⟩
      · have last : place.rest = [] := by
          rw [List.nil_append] at next
          rcases stops with rfl | rfl | ⟨rest, rfl⟩
          · cases next
          · exact (List.cons.inj next).2.symm
          · cases (List.cons.inj next).1
        rw [after, last] at closes
        simp [Place.isBoundary, tables.period.1] at closes
      · have period := chars head (by simp)
        rw [(List.cons.inj next).1, tables.period.1] at period
        cases period
    · have ended := any_getLast?_isWord before nonemptyMatch matchedChars
      rw [after, Place.isBoundary, Regex.placeAfter, ended] at closes
      rcases remaining with _ | ⟨head, remaining⟩
      · rw [List.append_nil]
        exact ⟨⟨suffix, suffixMem, pairs⟩, after⟩
      · have more := chars head (by simp)
        simp [more] at closes
  · rintro ⟨⟨suffix, suffixMem, pairs⟩, rfl⟩
    have stopped := stops.not_word tables
    have ended := any_getLast?_isWord before nonempty chars
    refine ⟨?_, suffix, suffixMem, word, tail, rfl, pairs, ?_, .inr rfl⟩
    · rcases word with _ | ⟨head, word⟩
      · exact absurd rfl nonempty
      · simp [Place.isBoundary, outside, chars head (.head _)]
    · simp [Place.isBoundary, Regex.placeAfter, ended, stopped]

/-- `_SUFFIX_RE.sub` from a place on. -/
def removeFrom (tables : CharTables) (before : Option Char) (text : Text) : Text :=
  tables.suffixRe.subFrom tables.isWord (fun _ => []) before text

theorem removeFrom_inside (inside : before.any tables.isWord = true)
    (chars : ∀ char ∈ word, tables.isWord char = true) :
    removeFrom tables before (word ++ tail) =
      word ++ removeFrom tables ((word.getLast?).or before) tail := by
  induction word generalizing before with
  | nil => rfl
  | cons head word ih =>
      have char := chars head (.head _)
      rw [List.cons_append, removeFrom,
        Regex.subFrom_cons_of_ends_eq_nil (ends_suffixRe_inside inside char), getLast?_cons_or]
      exact congrArg _ (ih char fun other mem => chars other (.tail _ mem))

theorem removeFrom_outside {head : Char} (char : tables.isWord head = false) :
    removeFrom tables before (head :: tail) = head :: removeFrom tables (some head) tail :=
  Regex.subFrom_cons_of_ends_eq_nil (ends_suffixRe_outside char)

/-- What remains of a word. -/
def remains (tables : CharTables) (word : Text) : Text := if tables.removes word then [] else word

/-- A word is removed as a whole, or kept. -/
theorem removeFrom_word (outside : before.any tables.isWord = false) (nonempty : word ≠ [])
    (chars : ∀ char ∈ word, tables.isWord char = true) (stops : Stops tail) :
    ∃ last, removeFrom tables before (word ++ tail) =
      remains tables word ++ removeFrom tables last tail := by
  refine ⟨(word.getLast?).or before, ?_⟩
  have ends : ∀ place, place ∈ tables.suffixRe.ends tables.isWord ⟨before, word ++ tail⟩ ↔ _ :=
    fun place => mem_ends_suffixRe_word outside nonempty chars stops
  rw [remains]
  split_ifs with removed
  · have ended : (tables.suffixRe.ends tables.isWord ⟨before, word ++ tail⟩).head? =
        some ⟨(word.getLast?).or before, tail⟩ := by
      have found := (ends _).mpr ⟨removed, rfl⟩
      rcases list : tables.suffixRe.ends tables.isWord ⟨before, word ++ tail⟩ with _ | ⟨first, _⟩
      · rw [list] at found
        cases found
      · rw [List.head?_cons, ((ends first).mp (by rw [list]; exact .head _)).2]
        rfl
    exact Regex.subFrom_append_of_head? nonempty ended
  · have noMatch : tables.suffixRe.ends tables.isWord ⟨before, word ++ tail⟩ = [] := by
      rw [List.eq_nil_iff_forall_not_mem]
      exact fun place mem => removed ((ends place).mp mem).1
    rcases word with _ | ⟨head, word⟩
    · exact absurd rfl nonempty
    · have char := chars head (.head _)
      rw [List.cons_append] at noMatch
      rw [List.cons_append, removeFrom, Regex.subFrom_cons_of_ends_eq_nil noMatch,
        getLast?_cons_or]
      exact congrArg _ (removeFrom_inside char fun other mem => chars other (.tail _ mem))

/-- The words of a name are removed one by one, and a period at its end stays. -/
theorem removeFrom_words {others : List Text} {ending : Text}
    (outside : before.any tables.isWord = false) (ends : ending = [] ∨ ending = ['.'])
    (nonempty : ∀ other ∈ word :: others, other ≠ [])
    (chars : ∀ other ∈ word :: others, ∀ char ∈ other, tables.isWord char = true) :
    removeFrom tables before (word ++ (others.flatMap (' ' :: ·) ++ ending)) =
      remains tables word ++ ((others.map (remains tables)).flatMap (' ' :: ·) ++ ending) := by
  have first := nonempty word (.head _)
  have firstChars := chars word (.head _)
  induction others generalizing word before with
  | nil =>
      have stops : Stops ending := ends.imp_right .inl
      rcases removeFrom_word outside first firstChars stops with ⟨last, removed⟩
      rw [List.flatMap_nil, List.nil_append, removed]
      rcases ends with rfl | rfl
      · simp [removeFrom]
      · rw [removeFrom_outside tables.period.1]
        simp [removeFrom]
  | cons other others ih =>
      have stops : Stops ((other :: others).flatMap (' ' :: ·) ++ ending) := .inr (.inr ⟨_, rfl⟩)
      rcases removeFrom_word outside first firstChars stops with ⟨last, removed⟩
      have blank : (some ' ').any tables.isWord = false := tables.blank_not_word
      have later := ih blank (fun next mem => nonempty next (.tail _ mem))
        (fun next mem => chars next (.tail _ mem)) (nonempty other (.tail _ (.head _)))
        (chars other (.tail _ (.head _)))
      rw [removed, List.flatMap_cons, List.cons_append, List.cons_append,
        removeFrom_outside tables.blank_not_word, List.append_assoc, later]
      simp

/-- Pieces between blanks are split apart again, and the empty ones are dropped. -/
theorem split_pieces {piece : Text} {others : List Text}
    (noSpace : ∀ other ∈ piece :: others, ∀ char ∈ other, tables.isSpace char = false) :
    tables.split (piece ++ others.flatMap (' ' :: ·)) = (piece :: others).filter (· ≠ []) := by
  have first := noSpace piece (.head _)
  rw [CharTables.split]
  congr 1
  induction others generalizing piece with
  | nil =>
      rw [List.flatMap_nil, List.append_nil]
      exact List.splitOnP_eq_singleton first
  | cons other others ih =>
      rw [List.flatMap_cons, List.cons_append, List.splitOnP_append_cons_of_forall_mem first ' ' tables.blank,
        ih (fun next mem => noSpace next (.tail _ mem)) (noSpace other (.tail _ (.head _)))]

end Removal

namespace CompanyName

variable {tables : CharTables} (name : CompanyName tables)

/-- The words that are left of a name: those of the base name except "incorporated", and after a
suffix with a period the period. -/
def leftWords : List Text :=
  name.base.filter (fun word => ¬ tables.IsSuffix "incorporated".toList word) ++
    if name.suffix.any Prod.snd then [['.']] else []

/-- The pattern removes the words "incorporated" of a base name. -/
theorem remains_base {word : Text} (mem : word ∈ name.base) : remains tables word =
    if tables.IsSuffix "incorporated".toList word then [] else word := by
  have others := name.noSuffix word mem
  have same : tables.removes word = true ↔ tables.IsSuffix "incorporated".toList word := by
    rw [removes_iff]
    constructor
    · rintro ⟨suffix, suffixMem, pairs⟩
      simp only [suffixes, List.mem_cons, List.not_mem_nil, or_false] at suffixMem
      rcases suffixMem with rfl | rfl | rfl | rfl | rfl
      · exact absurd pairs (others _ (by decide))
      · exact absurd pairs (others _ (by decide))
      · exact absurd pairs (others _ (by decide))
      · exact pairs
      · exact absurd pairs (others _ (by decide))
    · exact fun pairs => ⟨_, by decide, pairs⟩
  simp only [remains, same]

/-- The suffix of a name is removed. -/
theorem remains_suffix {last : Text × Bool} (mem : last ∈ name.suffix) :
    remains tables last.1 = [] ∧ last.1 ≠ [] ∧ ∀ char ∈ last.1, tables.isWord char = true := by
  have all : ∀ suffix ∈ legalSuffixes, suffix ∈ suffixes := by decide
  rcases name.legal last mem with ⟨suffix, legal, pairs⟩
  have suffixMem := all suffix legal
  refine ⟨if_pos (removes_iff.mpr ⟨suffix, suffixMem, pairs⟩), ?_, pairs.isWord suffixMem⟩
  intro none
  rw [none] at pairs
  cases pairs
  exact suffix_ne_nil [] suffixMem rfl

/-- What is left where the suffix was. -/
def leftEnding : List Text :=
  match name.suffix with
  | none => []
  | some (_, period) => [if period then ['.'] else []]

/-- The pattern leaves the words of the base name that it does not remove, and a period. -/
theorem sub_text : tables.suffixRe.sub tables.isWord (fun _ => []) name.text =
    [' '].intercalate (name.base.map (remains tables) ++ name.leftEnding) := by
  rcases base : name.base with _ | ⟨word, others⟩
  · exact absurd base name.nonempty
  have words := name.words
  rw [base] at words
  have start : ∀ text, tables.suffixRe.sub tables.isWord (fun _ => []) text =
      removeFrom tables none text := fun _ => rfl
  rw [start, List.map_cons, List.cons_append, intercalate_cons_eq, CompanyName.text, leftEnding,
    baseText, base, intercalate_cons_eq]
  rcases suffix : name.suffix with _ | ⟨last, period⟩
  · have removed := @removeFrom_words tables none word others [] rfl (.inl rfl)
      (fun other mem => (words other mem).1) fun other mem => (words other mem).2
    simpa using removed
  · rcases name.remains_suffix suffix with ⟨gone, nonempty, chars⟩
    have ends : (if period then ['.'] else []) = [] ∨ (if period then ['.'] else []) = ['.'] := by
      cases period
      · exact .inl rfl
      · exact .inr rfl
    have all : ∀ other ∈ word :: (others ++ [last]),
        other ≠ [] ∧ ∀ char ∈ other, tables.isWord char = true := by
      intro other mem
      rw [← List.cons_append, List.mem_append, List.mem_singleton] at mem
      rcases mem with mem | rfl
      · exact words other mem
      · exact ⟨nonempty, chars⟩
    have removed := @removeFrom_words tables none word (others ++ [last]) _ rfl ends
      (fun other mem => (all other mem).1) fun other mem => (all other mem).2
    simpa [gone] using removed

theorem leftWords_eq :
    (name.base.map (remains tables) ++ name.leftEnding).filter (· ≠ []) = name.leftWords := by
  have kept : (name.base.map (remains tables)).filter (· ≠ []) =
      name.base.filter fun word => ¬ tables.IsSuffix "incorporated".toList word := by
    have remaining := fun word (mem : word ∈ name.base) => name.remains_base mem
    have words := name.words
    generalize name.base = base at remaining words
    generalize "incorporated".toList = incorporated at remaining ⊢
    induction base with
    | nil => rfl
    | cons word base ih =>
        have later := ih (fun other mem => words other (.tail _ mem))
          fun other mem => remaining other (.tail _ mem)
        have nonempty := (words word (.head _)).1
        rw [List.map_cons, remaining word (.head _), List.filter_cons, List.filter_cons, later]
        by_cases removed : tables.IsSuffix incorporated word
        · simp [removed]
        · simp [removed, nonempty]
  have ending : name.leftEnding.filter (· ≠ []) =
      if name.suffix.any Prod.snd then [['.']] else [] := by
    rw [leftEnding]
    rcases name.suffix with _ | ⟨last, _ | _⟩ <;> rfl
  rw [List.filter_append, kept, ending, leftWords]

/-- The name is normalized to the words that are left. -/
theorem normalizeName_text :
    tables.normalizeName name.text = [' '].intercalate name.leftWords := by
  have noSpace : ∀ piece ∈ name.base.map (remains tables) ++ name.leftEnding, ∀ char ∈ piece,
      tables.isSpace char = false := by
    intro piece mem char charMem
    rcases List.mem_append.mp mem with mem | mem
    · rcases List.mem_map.mp mem with ⟨word, wordMem, rfl⟩
      rw [remains] at charMem
      split_ifs at charMem
      · cases charMem
      · exact tables.word_not_space char ((name.words word wordMem).2 char charMem)
    · rw [leftEnding] at mem
      split at mem
      · cases mem
      · obtain rfl := List.mem_singleton.mp mem
        split_ifs at charMem
        · obtain rfl := List.mem_singleton.mp charMem
          exact tables.period.2
        · cases charMem
  rw [CharTables.normalizeName, sub_text, ← leftWords_eq]
  rcases pieces : name.base.map (remains tables) ++ name.leftEnding with _ | ⟨piece, others⟩
  · exact absurd (List.map_eq_nil_iff.mp (List.append_eq_nil_iff.mp pieces).1) name.nonempty
  · rw [pieces] at noSpace
    rw [intercalate_cons_eq, split_pieces noSpace]

/-- Some word is left. -/
theorem leftText_eq_nil_iff : [' '].intercalate name.leftWords = [] ↔ name.leftWords = [] := by
  have nonempty : ∀ word ∈ name.leftWords, word ≠ [] := by
    rw [← leftWords_eq]
    intro word mem
    exact of_decide_eq_true (List.mem_filter.mp mem).2
  rcases words : name.leftWords with _ | ⟨word, others⟩
  · simp [List.intercalate]
  · rw [words] at nonempty
    simp [intercalate_cons_eq, nonempty word (.head _)]

/-- A base name starts and ends with word characters. -/
theorem baseText_ends : name.baseText.head?.any tables.isWord = true ∧
    name.baseText.getLast?.any tables.isWord = true := by
  rcases base : name.base with _ | ⟨word, others⟩
  · exact absurd base name.nonempty
  have words := name.words
  rw [base] at words
  rcases words word (.head _) with ⟨nonempty, chars⟩
  rw [baseText, base, intercalate_cons_eq]
  constructor
  · rcases word with _ | ⟨head, word⟩
    · exact absurd rfl nonempty
    · exact chars head (.head _)
  · rcases List.eq_nil_or_concat others with rfl | ⟨init, last, rfl⟩
    · have ended := any_getLast?_isWord none nonempty chars
      simpa using ended
    · rcases words last (by simp) with ⟨lastNonempty, lastChars⟩
      have split : word ++ (init.concat last).flatMap (' ' :: ·) =
          word ++ init.flatMap (' ' :: ·) ++ [' '] ++ last := by simp
      rw [split, List.getLast?_append]
      exact any_getLast?_isWord _ lastNonempty lastChars

theorem text_ne_nil : name.text ≠ [] := by
  have nonempty : name.baseText ≠ [] := by
    intro none
    have first := name.baseText_ends.1
    rw [none] at first
    cases first
  rw [CompanyName.text]
  split
  · exact nonempty
  · simp

/-- Where the base name occurs, it stands between word boundaries. -/
theorem OccursIn.mentions {name : CompanyName tables} {text : Text} (occurs : name.OccursIn text) :
    Regex.Mentions tables.isWord tables.sameCase name.baseText text := by
  rcases occurs with ⟨left, found, right, rfl, pairs, before, after⟩
  have alike : found.map tables.isWord = name.baseText.map tables.isWord := by
    clear before after
    generalize name.baseText = base at pairs
    induction pairs with
    | nil => rfl
    | cons same _ ih => rw [List.map_cons, List.map_cons, same.2, ih]
  have ends : found.head?.any tables.isWord = true ∧ found.getLast?.any tables.isWord = true := by
    have base := name.baseText_ends
    have any_eq : ∀ char : Option Char, char.any tables.isWord = (char.map tables.isWord).any id :=
      fun char => by cases char <;> rfl
    rw [any_eq, any_eq, ← List.head?_map, ← List.getLast?_map] at base ⊢
    rw [alike]
    exact base
  refine ⟨left, found, right, rfl, pairs.imp fun _ _ same => same.1, ?_, ?_⟩
  · rcases found with _ | ⟨head, found⟩
    · cases ends.1
    · have first : tables.isWord head = true := ends.1
      simp [Place.isBoundary, before, first]
  · rcases last : found.getLast? with _ | char
    · rw [last] at ends
      cases ends.2
    · rw [last] at ends
      have ended : tables.isWord char = true := ends.2
      simp [Place.isBoundary, after, ended]

/-- Without a period and without "incorporated" all words of the base name are left. -/
theorem leftWords_of_plain (noPeriod : ¬ name.HasPeriod)
    (plain : ∀ word ∈ name.base, ¬ tables.IsSuffix "incorporated".toList word) :
    name.leftWords = name.base := by
  have ending : name.suffix.any Prod.snd = false := by
    rcases suffix : name.suffix with _ | ⟨last, _ | _⟩
    · rfl
    · rfl
    · exact absurd ⟨last, suffix⟩ noPeriod
  have kept : name.base.filter (fun word => ¬ tables.IsSuffix "incorporated".toList word) =
      name.base := by
    rw [List.filter_eq_self]
    exact fun word mem => decide_eq_true (plain word mem)
  rw [leftWords, kept, ending]
  simp

end CompanyName

section Tagging

variable {tables : CharTables} {instruments : List (ℕ × InstrumentRow)} {id : ℕ}
  {row : InstrumentRow} {name : CompanyName tables} {text : Text}

/-- The symbol of an instrument stands between word boundaries. -/
def MentionsSymbol (tables : CharTables) (row : InstrumentRow) (text : Text) : Prop :=
  Regex.Mentions tables.isWord (· == ·) row.symbol.toList text

/-- What is left of a name stands between word boundaries, in any case. -/
def CompanyName.MentionsLeft (name : CompanyName tables) (text : Text) : Prop :=
  name.leftWords ≠ [] ∧
    Regex.Mentions tables.isWord tables.sameCase ([' '].intercalate name.leftWords) text

theorem namePattern_text (named : row.name.map String.toList = some name.text) :
    namePattern tables row.name = if name.leftWords = [] then none
      else some (.delimited tables.sameCase ([' '].intercalate name.leftWords)) := by
  rcases column : row.name with _ | chars
  · rw [column] at named
    cases named
  · rw [column] at named
    have same : chars.toList = name.text := Option.some.inj named
    have nonempty : chars.isEmpty = false := by
      rw [Bool.eq_false_iff, Ne, String.isEmpty_iff]
      rintro rfl
      exact name.text_ne_nil same.symm
    have none_iff := name.leftText_eq_nil_iff
    simp only [namePattern, nonempty, same, name.normalizeName_text, List.isEmpty_iff, none_iff]
    rfl

theorem finds_iff (id : ℕ) (named : row.name.map String.toList = some name.text) :
    Matcher.finds tables text ⟨id, .delimited (· == ·) row.symbol.toList,
        namePattern tables row.name⟩ = true ↔
      MentionsSymbol tables row text ∨ name.MentionsLeft text := by
  rw [Matcher.finds, Bool.or_eq_true, Regex.search_delimited_iff, namePattern_text named]
  apply or_congr .rfl
  by_cases nothing : name.leftWords = []
  · simp [nothing, CompanyName.MentionsLeft]
  · rw [if_neg nothing, Option.any_some, Regex.search_delimited_iff, CompanyName.MentionsLeft,
      and_iff_right nothing]

/-- An instrument is tagged when its symbol or what is left of its name is mentioned. -/
theorem mem_tagInstruments_iff (distinct : (instruments.map Prod.fst).Nodup)
    (listed : (id, row) ∈ instruments) (named : row.name.map String.toList = some name.text) :
    id ∈ tagInstruments tables text (buildMatchers tables instruments) ↔
      MentionsSymbol tables row text ∨ name.MentionsLeft text := by
  rw [← finds_iff id named]
  constructor
  · intro tagged
    rcases List.mem_map.mp tagged with ⟨matcher, found, same⟩
    rcases List.mem_filter.mp found with ⟨built, finds⟩
    rcases List.mem_map.mp built with ⟨other, otherMem, rfl⟩
    obtain rfl := List.inj_on_of_nodup_map distinct otherMem listed same
    exact finds
  · intro finds
    exact List.mem_map.mpr ⟨_, List.mem_filter.mpr ⟨List.mem_map.mpr ⟨_, listed, rfl⟩, finds⟩, rfl⟩

end Tagging

/-- An instrument whose base name occurs in a text is tagged if and only if its name has no period
and no word "incorporated", or its symbol is mentioned, or what is left of its name is. -/
theorem tagInstruments_iff {tables : CharTables} {instruments : List (ℕ × InstrumentRow)} {id : ℕ}
    {row : InstrumentRow} {name : CompanyName tables} {text : Text}
    (distinct : (instruments.map Prod.fst).Nodup) (listed : (id, row) ∈ instruments)
    (named : row.name.map String.toList = some name.text) (occurs : name.OccursIn text) :
    id ∈ tagInstruments tables text (buildMatchers tables instruments) ↔
      (¬ name.HasPeriod ∧ ∀ word ∈ name.base, ¬ tables.IsSuffix "incorporated".toList word) ∨
        MentionsSymbol tables row text ∨ name.MentionsLeft text := by
  rw [mem_tagInstruments_iff distinct listed named]
  constructor
  · exact .inr
  · rintro (⟨noPeriod, plain⟩ | found)
    · have left := name.leftWords_of_plain noPeriod plain
      have mentioned := occurs.mentions
      rw [CompanyName.baseText, ← left] at mentioned
      exact .inr ⟨left ▸ name.nonempty, mentioned⟩
    · exact found

/-- The tables for the characters of ASCII. -/
def asciiTables : CharTables where
  isWord char := char.isAlphanum || char == '_'
  isSpace char := char.isWhitespace
  sameCase letter char := letter.toLower == char.toLower
  word_not_space := by
    intro char word
    rw [Bool.eq_false_iff]
    intro space
    simp only [Char.isWhitespace, Bool.or_eq_true, decide_eq_true_eq] at space
    rcases space with ((rfl | rfl) | rfl) | rfl <;> revert word <;> decide
  blank := by decide
  period := by decide
  letters := by
    have lower : suffixes.all (·.all fun letter =>
        letter.toLower == letter && letter.isAlphanum) = true := by decide
    simp only [List.all_eq_true, Bool.and_eq_true, beq_iff_eq] at lower
    intro suffix mem letter letterMem char same
    rcases lower suffix mem letter letterMem with ⟨kept, alphanum⟩
    rw [kept, beq_iff_eq] at same
    by_cases upper : 'A'.val ≤ char.val ∧ char.val ≤ 'Z'.val
    · have alpha : char.isUpper = true := decide_eq_true upper
      change (char.isUpper || char.isLower || char.isDigit || char == '_') = true
      rw [alpha]
      rfl
    · have lowered : char.toLower = char := dif_neg upper
      rw [lowered] at same
      rw [← same, alphanum]
      rfl

/-- A row of the instrument master with its company name. -/
def companyRow (symbol name : String) : InstrumentRow where
  symbol := symbol
  exchange := "NSE"
  isin := none
  instrumentKey := "NSE_EQ|" ++ symbol
  name := some name
  tickSize := 1 / 20
  lotSize := 1

/-- "Reliance Industries" with a suffix, which may have a period. -/
def relianceName (period : Bool) : CompanyName asciiTables where
  base := ["Reliance".toList, "Industries".toList]
  suffix := some ("Ltd".toList, period)
  nonempty := by decide
  words := by
    have checked : ["Reliance".toList, "Industries".toList].all (fun word =>
        word.length != 0 && word.all asciiTables.isWord) = true := by decide
    simp only [List.all_eq_true, Bool.and_eq_true, bne_iff_ne] at checked
    exact fun word mem => ⟨List.ne_nil_of_length_pos (Nat.pos_of_ne_zero (checked word mem).1),
      (checked word mem).2⟩
  noSuffix := by decide
  legal := by
    have ltd : List.Forall₂ (fun letter char : Char => (letter.toLower == char.toLower) = true)
        "ltd".toList "Ltd".toList := by decide
    rintro last ⟨⟩
    exact ⟨_, .head _, ltd⟩

/-- An article about the company. -/
def article : Text := "RELIANCE INDUSTRIES posts record profit".toList

theorem relianceName_occurs (period : Bool) : (relianceName period).OccursIn article := by
  have pairs : List.Forall₂ (fun char other => asciiTables.sameCase char other = true ∧
      asciiTables.isWord other = asciiTables.isWord char) "Reliance Industries".toList
      "RELIANCE INDUSTRIES".toList := by decide
  exact ⟨[], _, " posts record profit".toList, rfl, pairs, rfl, rfl⟩

theorem tagInstruments_iff_sample : 1 ∈ tagInstruments asciiTables article
    (buildMatchers asciiTables [(1, companyRow "RIL" "Reliance Industries Ltd")]) := by
  have named : (companyRow "RIL" "Reliance Industries Ltd").name.map String.toList =
      some (relianceName false).text := rfl
  refine (tagInstruments_iff (by simp) (.head _) named (relianceName_occurs false)).mpr ?_
  refine .inl ⟨?_, by decide⟩
  rintro ⟨suffix, ⟨⟩⟩

/-- After "Ltd." a period is left in the pattern, and the company is not found. -/
theorem relianceName_missed : (relianceName true).OccursIn article ∧
    1 ∉ tagInstruments asciiTables article
      (buildMatchers asciiTables [(1, companyRow "RIL" "Reliance Industries Ltd.")]) := by
  have named : (companyRow "RIL" "Reliance Industries Ltd.").name.map String.toList =
      some (relianceName true).text := rfl
  refine ⟨relianceName_occurs true, ?_⟩
  rw [mem_tagInstruments_iff (by simp) (.head _) named]
  rintro (symbol | ⟨-, left⟩)
  · have found := Regex.search_delimited_iff.mpr symbol
    revert found
    decide
  · have found := Regex.search_delimited_iff.mpr left
    revert found
    decide

end PersonalTrade
