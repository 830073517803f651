import SpotGridBot.Utils.Symbols

namespace SpotGridBot.Utils
namespace Registry
variable (reg : Registry)

def substr (sv : List Char) (pos n : ℕ) : List Char := (sv.drop pos).take n

def validSymbol (sv : List Char) : Bool := reg.currency sv != Currency.invalid

def validMask (mask : List Char) : Bool :=
  match mask.length with
  | 1 => mask[0]? == some '*'
  | 3 => mask == ['*', '/', '*'] || reg.validSymbol mask
  | 5 =>
      if mask[1]? = some '/' then mask[0]? == some '*' && reg.validSymbol (substr mask 2 3)
      else if mask[3]? = some '/' then mask[4]? == some '*' && reg.validSymbol (substr mask 0 3)
      else false
  | 6 => reg.validSymbol (substr mask 0 3) && reg.validSymbol (substr mask 3 3)
  | 7 => mask[3]? == some '/' && reg.validSymbol (substr mask 0 3) &&
      reg.validSymbol (substr mask 4 3)
  | _ => false

def matchesMask (cp : CurrencyPair) (mask : List Char) : Bool :=
  if cp.Valid then
    match mask.length with
    | 1 => mask[0]? == some '*'
    | 3 => mask == ['*', '/', '*'] || reg.currency mask == cp.baseCCY ||
        reg.currency mask == cp.quoteCCY
    | 5 =>
        if mask[1]? = some '/' then
          mask[0]? == some '*' && reg.currency (substr mask 2 3) == cp.quoteCCY
        else if mask[3]? = some '/' then
          mask[4]? == some '*' && reg.currency (substr mask 0 3) == cp.baseCCY
        else false
    | 6 => reg.currency (substr mask 0 3) == cp.baseCCY &&
        reg.currency (substr mask 3 3) == cp.quoteCCY
    | 7 => mask[3]? == some '/' && reg.currency (substr mask 0 3) == cp.baseCCY &&
        reg.currency (substr mask 4 3) == cp.quoteCCY
    | _ => false
  else false

inductive Documented (base quote : List Char) : List Char → Prop
  | any : Documented base quote ['*']
  | anyPair : Documented base quote ['*', '/', '*']
  | base : Documented base quote base
  | quote : Documented base quote quote
  | first : Documented base quote (base ++ ['/', '*'])
  | second : Documented base quote ('*' :: '/' :: quote)
  | delimited : Documented base quote (base ++ '/' :: quote)
  | concatenated : Documented base quote (base ++ quote)

inductive Recognised (base quote : List Char) : List Char → Prop
  | any : Recognised base quote ['*']
  | anyPair : Recognised base quote ['*', '/', '*']
  | base (three : base.length = 3) : Recognised base quote base
  | quote (three : quote.length = 3) : Recognised base quote quote
  | first (three : base.length = 3) (plain : base[1]? ≠ some '/') :
      Recognised base quote (base ++ ['/', '*'])
  | second (three : quote.length = 3) : Recognised base quote ('*' :: '/' :: quote)
  | delimited (three : base.length = 3) (three' : quote.length = 3) :
      Recognised base quote (base ++ '/' :: quote)
  | concatenated (three : base.length = 3) (three' : quote.length = 3) :
      Recognised base quote (base ++ quote)

variable {reg}

theorem currency_eq_iff (bijective : reg.Bijective) {c : Currency} (valid : c.Valid)
    {sv : List Char} (nonempty : sv ≠ []) : reg.currency sv = c ↔ sv = (reg.symbol c).toList := by
  constructor
  · rintro rfl
    have text := (bijective _ _).mp (reg.currency_valid valid)
    rw [symbol, text, Option.getD_some, String.toList_ofList]
  · intro same
    have text : reg.valToStr c = some (String.ofList sv) := by
      unfold symbol at same
      cases text : reg.valToStr c with
      | none =>
          rw [text] at same
          exact absurd same nonempty
      | some name =>
          rw [text, Option.getD_some] at same
          rw [same, String.ofList_toList]
    unfold currency
    rw [(bijective _ _).mpr text]

section Meaning
variable (bijective : reg.Bijective) {cp : CurrencyPair} (valid : cp.Valid) {mask : List Char}
include bijective valid

theorem recognised_of_matchesMask (hit : reg.matchesMask cp mask = true) :
    Recognised (reg.symbol cp.baseCCY).toList (reg.symbol cp.quoteCCY).toList mask := by
  have base : ∀ {sv : List Char}, sv ≠ [] →
      (reg.currency sv = cp.baseCCY ↔ sv = (reg.symbol cp.baseCCY).toList) :=
    currency_eq_iff bijective valid.1
  have quote : ∀ {sv : List Char}, sv ≠ [] →
      (reg.currency sv = cp.quoteCCY ↔ sv = (reg.symbol cp.quoteCCY).toList) :=
    currency_eq_iff bijective valid.2
  unfold matchesMask at hit
  rw [if_pos valid] at hit
  split at hit
  next one =>
    obtain ⟨a, rfl⟩ := List.length_eq_one_iff.mp one
    obtain rfl : a = '*' := by simpa using hit
    exact .any
  next three =>
    have nonempty : mask ≠ [] := by
      rintro rfl
      cases three
    simp only [Bool.or_eq_true, beq_iff_eq, base nonempty, quote nonempty] at hit
    obtain (rfl | rfl) | rfl := hit
    · exact .anyPair
    · exact .base three
    · exact .quote three
  next five =>
    match mask, five with
    | [a, b, c, d, e], _ =>
        simp only [List.getElem?_cons_succ, List.getElem?_cons_zero, Option.some.injEq, substr,
          List.drop_succ_cons, List.drop_zero, List.take_succ_cons, List.take_zero] at hit
        split_ifs at hit with second first
        · simp only [Bool.and_eq_true, beq_iff_eq, Option.some.injEq,
            quote (List.cons_ne_nil _ _)] at hit
          obtain ⟨rfl, symbol⟩ := hit
          rw [second, symbol]
          exact .second (symbol ▸ rfl)
        · simp only [Bool.and_eq_true, beq_iff_eq, Option.some.injEq,
            base (List.cons_ne_nil _ _)] at hit
          obtain ⟨rfl, symbol⟩ := hit
          have plain : [a, b, c][1]? ≠ some '/' := by simpa using second
          rw [first]
          exact symbol ▸ .first rfl plain
  next six =>
    match mask, six with
    | [a, b, c, d, e, f], _ =>
        simp only [substr, List.drop_succ_cons, List.drop_zero, List.take_succ_cons,
          List.take_zero, Bool.and_eq_true, beq_iff_eq, base (List.cons_ne_nil _ _),
          quote (List.cons_ne_nil _ _)] at hit
        obtain ⟨symbol, symbol'⟩ := hit
        have both : Recognised [a, b, c] [d, e, f] ([a, b, c] ++ [d, e, f]) :=
          .concatenated rfl rfl
        exact symbol ▸ symbol' ▸ both
  next seven =>
    match mask, seven with
    | [a, b, c, d, e, f, g], _ =>
        simp only [List.getElem?_cons_succ, List.getElem?_cons_zero, substr, List.drop_succ_cons,
          List.drop_zero, List.take_succ_cons, List.take_zero, Bool.and_eq_true, beq_iff_eq,
          Option.some.injEq, base (List.cons_ne_nil _ _), quote (List.cons_ne_nil _ _)] at hit
        obtain ⟨⟨rfl, symbol⟩, symbol'⟩ := hit
        have both : Recognised [a, b, c] [e, f, g] ([a, b, c] ++ '/' :: [e, f, g]) :=
          .delimited rfl rfl
        exact symbol ▸ symbol' ▸ both
  next => cases hit

theorem matchesMask_of_recognised
    (known : Recognised (reg.symbol cp.baseCCY).toList (reg.symbol cp.quoteCCY).toList mask) :
    reg.matchesMask cp mask = true := by
  have base : ∀ {sv : List Char}, sv.length = 3 → sv = (reg.symbol cp.baseCCY).toList →
      reg.currency sv = cp.baseCCY := fun three same =>
    (currency_eq_iff bijective valid.1 (List.ne_nil_of_length_pos (by omega))).mpr same
  have quote : ∀ {sv : List Char}, sv.length = 3 → sv = (reg.symbol cp.quoteCCY).toList →
      reg.currency sv = cp.quoteCCY := fun three same =>
    (currency_eq_iff bijective valid.2 (List.ne_nil_of_length_pos (by omega))).mpr same
  generalize (reg.symbol cp.baseCCY).toList = first at known base
  generalize (reg.symbol cp.quoteCCY).toList = second at known quote
  unfold matchesMask
  rw [if_pos valid]
  cases known with
  | any => rfl
  | anyPair => rfl
  | base three => simp [three, base three rfl]
  | quote three => simp [three, quote three rfl]
  | first three plain =>
      have read := base three rfl
      obtain ⟨a, b, c, rfl⟩ := List.length_eq_three.mp three
      have other : b ≠ '/' := by simpa using plain
      simp [substr, other, read]
  | second three =>
      have read := quote three rfl
      obtain ⟨a, b, c, rfl⟩ := List.length_eq_three.mp three
      simp [substr, read]
  | delimited three three' =>
      have read := base three rfl
      have read' := quote three' rfl
      obtain ⟨a, b, c, rfl⟩ := List.length_eq_three.mp three
      obtain ⟨d, e, f, rfl⟩ := List.length_eq_three.mp three'
      simp [substr, read, read']
  | concatenated three three' =>
      have read := base three rfl
      have read' := quote three' rfl
      obtain ⟨a, b, c, rfl⟩ := List.length_eq_three.mp three
      obtain ⟨d, e, f, rfl⟩ := List.length_eq_three.mp three'
      simp [substr, read, read']

theorem matchesMask_iff_recognised : reg.matchesMask cp mask = true ↔
    Recognised (reg.symbol cp.baseCCY).toList (reg.symbol cp.quoteCCY).toList mask :=
  ⟨recognised_of_matchesMask bijective valid, matchesMask_of_recognised bijective valid⟩

end Meaning

theorem Recognised.documented {base quote mask : List Char}
    (known : Recognised base quote mask) : Documented base quote mask := by
  cases known with
  | any => exact .any
  | anyPair => exact .anyPair
  | base => exact .base
  | quote => exact .quote
  | first => exact .first
  | second => exact .second
  | delimited => exact .delimited
  | concatenated => exact .concatenated

theorem Recognised.length {base quote mask : List Char} (known : Recognised base quote mask) :
    mask.length ∈ [1, 3, 5] ∨
      mask.length ∈ [6, 7] ∧ base.length = 3 ∧ quote.length = 3 := by
  cases known with
  | any => exact .inl (by decide)
  | anyPair => exact .inl (by decide)
  | base three => exact .inl (by simp [three])
  | quote three => exact .inl (by simp [three])
  | first three => exact .inl (by simp [three])
  | second three => exact .inl (by simp [three])
  | delimited three three' => exact .inr ⟨by simp [three, three'], three, three'⟩
  | concatenated three three' => exact .inr ⟨by simp [three, three'], three, three'⟩

theorem recognised_all_iff (base quote : List Char) :
    (∀ mask, Documented base quote mask → Recognised base quote mask) ↔
      base.length = 3 ∧ quote.length = 3 ∧
        (base[1]? = some '/' → base ++ ['/', '*'] = '*' :: '/' :: quote) := by
  constructor
  · intro all
    have delimited := (all _ .delimited).length
    have concatenated := (all _ .concatenated).length
    obtain ⟨three, three'⟩ : base.length = 3 ∧ quote.length = 3 := by
      rcases delimited with short | ⟨-, three⟩
      · rcases concatenated with short' | ⟨-, three⟩
        · simp only [List.length_append, List.length_cons, List.mem_cons, List.not_mem_nil,
            or_false] at short short'
          omega
        · exact three
      · exact three
    refine ⟨three, three', fun slash => ?_⟩
    have first := all _ .first
    generalize same : base ++ ['/', '*'] = mask at first
    have length : mask.length = 5 := by simp [← same, three]
    cases first with
    | second => rfl
    | first _ plain => exact absurd slash plain
    | any => cases length
    | anyPair => cases length
    | base => omega
    | quote => omega
    | delimited => simp [three, three'] at length
    | concatenated => simp [three, three'] at length
  · rintro ⟨three, three', slash⟩ mask documented
    cases documented with
    | any => exact .any
    | anyPair => exact .anyPair
    | base => exact .base three
    | quote => exact .quote three'
    | first =>
        by_cases inside : base[1]? = some '/'
        · exact slash inside ▸ .second three'
        · exact .first three inside
    | second => exact .second three'
    | delimited => exact .delimited three three'
    | concatenated => exact .concatenated three three'

theorem validMask_of_matchesMask {cp : CurrencyPair} {mask : List Char}
    (hit : reg.matchesMask cp mask = true) : reg.validMask mask = true := by
  have known : ∀ {c : Currency} {sv : List Char}, c.Valid → reg.currency sv = c →
      reg.validSymbol sv = true := by
    rintro c sv valid rfl
    exact bne_iff_ne.mpr valid.2
  unfold matchesMask at hit
  split at hit
  next valid =>
    unfold validMask
    split at hit
    next one => exact hit
    next three =>
      simp only [Bool.or_eq_true, beq_iff_eq] at hit
      obtain (rfl | base) | quote := hit
      · rfl
      · simp [known valid.1 base]
      · simp [known valid.2 quote]
    next five =>
      split_ifs at hit with second first
      · simp only [Bool.and_eq_true, beq_iff_eq] at hit
        simp [second, hit.1, known valid.2 hit.2]
      · simp only [Bool.and_eq_true, beq_iff_eq] at hit
        simp [second, first, hit.1, known valid.1 hit.2]
    next six =>
      simp only [Bool.and_eq_true, beq_iff_eq] at hit
      simp [known valid.1 hit.1, known valid.2 hit.2]
    next seven =>
      simp only [Bool.and_eq_true, beq_iff_eq] at hit
      simp [hit.1.1, known valid.1 hit.1.2, known valid.2 hit.2]
    next => cases hit
  next => cases hit

/-- The masks of a pair mean what is documented if and only if its symbols have three characters and
no slash of the first one hides the one behind it; a mask that matches is a valid one. -/
theorem masks_mean_documented_iff (bijective : reg.Bijective) {cp : CurrencyPair}
    (valid : cp.Valid) :
    ((∀ mask, reg.matchesMask cp mask = true ↔
        Documented (reg.symbol cp.baseCCY).toList (reg.symbol cp.quoteCCY).toList mask) ↔
      (reg.symbol cp.baseCCY).toList.length = 3 ∧ (reg.symbol cp.quoteCCY).toList.length = 3 ∧
        ((reg.symbol cp.baseCCY).toList[1]? = some '/' →
          (reg.symbol cp.baseCCY).toList ++ ['/', '*'] =
            '*' :: '/' :: (reg.symbol cp.quoteCCY).toList)) ∧
      ∀ mask, reg.matchesMask cp mask = true → reg.validMask mask = true := by
  refine ⟨?_, fun mask => validMask_of_matchesMask⟩
  rw [← recognised_all_iff]
  constructor
  · intro same mask documented
    exact recognised_of_matchesMask bijective valid ((same mask).mpr documented)
  · intro all mask
    rw [matchesMask_iff_recognised bijective valid]
    exact ⟨Recognised.documented, all mask⟩

theorem majors_masks :
    majors.matchesMask ⟨Currency.eur, Currency.usd⟩ "EUR/*".toList = true ∧
      majors.validMask "EUR/*".toList = true := by
  have masks := masks_mean_documented_iff majors_bijective
    (show CurrencyPair.Valid ⟨Currency.eur, Currency.usd⟩ by decide)
  have matched := (masks.1.mpr (by decide) _).mpr .first
  exact ⟨matched, masks.2 _ matched⟩

theorem four_letter_mask_missed :
    ¬ ∀ reg : Registry, reg.Bijective → ∀ cp : CurrencyPair, cp.Valid →
      (∀ mask, reg.matchesMask cp mask = true ↔
        Documented (reg.symbol cp.baseCCY).toList (reg.symbol cp.quoteCCY).toList mask) ∧
      ∀ mask, reg.matchesMask cp mask = true → reg.validMask mask = true := by
  intro all
  have plain : Plain "USDT" := by decide
  have sound : (majors.register ⟨⟨1004⟩, "USDT"⟩).Sound := majors_sound.register plain
  have missed := ((all _ sound.bijective ⟨Currency.eur, ⟨1004⟩⟩ (by decide)).1 _).mpr .delimited
  exact absurd missed (by decide +kernel)

end Registry

end SpotGridBot.Utils
