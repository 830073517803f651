import SpotGridBot.Lib.JsonReader
import Mathlib.Data.List.Chain

namespace SpotGridBot.JsonText

theorem flatten_splitOn {α : Type*} [BEq α] [LawfulBEq α] (a : α) (l : List α) :
    (l.splitOn a).flatten = l.filter (· != a) := by
  unfold List.splitOn
  induction l with
  | nil => rfl
  | cons b l ih =>
      rw [List.splitOnP_cons_eq_if_modifyHead]
      by_cases here : b == a
      · rw [if_pos here, List.flatten_cons, List.nil_append, ih, List.filter_cons_of_neg]
        simpa using here
      · rw [if_neg here, List.filter_cons_of_pos (by simpa using here), ← ih]
        obtain ⟨first, rest, split⟩ := List.exists_cons_of_ne_nil (List.splitOnP_ne_nil (· == a) l)
        rw [split]
        rfl

def Token.isWord : Token → Bool
  | .word _ => true
  | _ => false

def WordsApart (tokens : List Token) : Prop :=
  tokens.IsChain fun token next => ¬ (token.isWord = true ∧ next.isWord = true)

namespace Scanner
variable {chars read : List Char} {scanner : Scanner} {tokens : List Token}

theorem scan_cons_some {c : Char} (scanned : scan scanner (c :: chars) = some tokens) :
    ∃ next first later, scanner.step c = some (next, first) ∧
      scan next chars = some later ∧ tokens = first ++ later := by
  rw [scan] at scanned
  obtain ⟨⟨next, first⟩, stepped, scanned⟩ := Option.bind_eq_some_iff.mp scanned
  obtain ⟨later, scanned, same⟩ := Option.map_eq_some_iff.mp scanned
  exact ⟨next, first, later, stepped, scanned, same.symm⟩

theorem scan_word_starts (scanned : scan (.word read) chars = some tokens) :
    ∃ chars' later, tokens = .word chars' :: later := by
  induction chars generalizing read tokens with
  | nil =>
      obtain rfl := Option.some.inj scanned
      exact ⟨read, [], rfl⟩
  | cons c chars ih =>
      obtain ⟨next, first, later, stepped, onward, rfl⟩ := scan_cons_some scanned
      cases found : between c with
      | some pair =>
          rw [step, stepWord, found] at stepped
          obtain ⟨rfl, rfl⟩ := Prod.mk.inj (Option.some.inj stepped)
          exact ⟨read, pair.2 ++ later, rfl⟩
      | none =>
          rw [step, stepWord, found] at stepped
          obtain ⟨rfl, rfl⟩ := Prod.mk.inj (Option.some.inj stepped)
          exact ih onward

theorem scan_word_of_apart (scanned : scan .outside chars = some tokens)
    (apart : WordsApart (.word read :: tokens)) :
    scan (.word read) chars = some (.word read :: tokens) := by
  cases chars with
  | nil =>
      obtain rfl := Option.some.inj scanned
      rfl
  | cons c chars =>
      obtain ⟨next, first, later, stepped, onward, rfl⟩ := scan_cons_some scanned
      cases found : between c with
      | some pair =>
          rw [step, found, Option.getD_some] at stepped
          obtain rfl := Option.some.inj stepped
          have stepped' : step (.word read) c = some (next, .word read :: first) := by
            rw [step, stepWord, found]
          rw [scan_cons stepped', onward]
          rfl
      | none =>
          rw [step, found, Option.getD_none] at stepped
          obtain ⟨rfl, rfl⟩ := Prod.mk.inj (Option.some.inj stepped)
          obtain ⟨chars', later', rfl⟩ := scan_word_starts onward
          exact absurd ⟨rfl, rfl⟩ (List.isChain_cons_cons.mp apart).1

theorem scan_lines (scanned : scan scanner chars = some tokens) (apart : WordsApart tokens) :
    scan scanner (chars.filter (· != '\n')) = some tokens := by
  induction chars generalizing scanner tokens with
  | nil => exact scanned
  | cons c chars ih =>
      obtain ⟨next, first, later, stepped, onward, rfl⟩ := scan_cons_some scanned
      by_cases line : c = '\n'
      · subst line
        rw [List.filter_cons_of_neg (by decide)]
        cases scanner with
        | outside =>
            obtain ⟨rfl, rfl⟩ := Prod.mk.inj (Option.some.inj stepped)
            exact ih onward apart
        | word read =>
            obtain ⟨rfl, rfl⟩ := Prod.mk.inj (Option.some.inj stepped)
            exact scan_word_of_apart (ih onward (List.IsChain.tail apart)) apart
        | _ => cases stepped
      · rw [List.filter_cons_of_pos (by simpa using line), scan_cons stepped,
          ih onward (List.IsChain.right_of_append apart)]
        rfl

end Scanner

section Read
variable {α : Type*} {r : Reader α} {builder next : Builder α} {tokens : List Token}

theorem Builder.put_word (result : α) (frames : List (Frame α)) (chars : List Char) :
    Builder.step r (Builder.put result frames) (.word chars) = none := by
  cases frames with
  | nil => rfl
  | cons frame frames =>
      cases frame with
      | array elements => rfl
      | object members name => rfl

theorem Builder.step_word {token token' : Token} (word : token.isWord = true)
    (word' : token'.isWord = true) (stepped : Builder.step r builder token = some next) :
    Builder.step r next token' = none := by
  cases token with
  | word chars =>
      cases token' with
      | word chars' =>
          cases builder with
          | value frames =>
              obtain ⟨result, -, rfl⟩ := Option.map_eq_some_iff.mp stepped
              exact put_word result frames chars'
          | arrayStart frames =>
              obtain ⟨result, -, rfl⟩ := Option.map_eq_some_iff.mp stepped
              exact put_word result _ chars'
          | _ => cases stepped
      | _ => cases word'
  | _ => cases word

theorem Builder.build_apart {result : α} (built : Builder.build r builder tokens = some result) :
    WordsApart tokens := by
  induction tokens generalizing builder with
  | nil => exact List.IsChain.nil
  | cons token tokens ih =>
      rw [Builder.build] at built
      obtain ⟨next, stepped, built⟩ := Option.bind_eq_some_iff.mp built
      cases tokens with
      | nil => exact List.IsChain.singleton token
      | cons token' tokens =>
          refine List.isChain_cons_cons.mpr ⟨?_, ih built⟩
          rintro ⟨word, word'⟩
          rw [Builder.build, Builder.step_word word word' stepped] at built
          cases built

theorem read_lines {text : List Char} {result : α} (accepted : read r text = some result) :
    read r (text.splitOn '\n').flatten = some result := by
  obtain ⟨tokens, scanned, built⟩ := Option.bind_eq_some_iff.mp accepted
  rw [flatten_splitOn, read, JsonText.tokens,
    Scanner.scan_lines scanned (Builder.build_apart built), Option.bind_some]
  exact built

end Read
end SpotGridBot.JsonText
