import SpotGridBot.Lib.Keyed
import SpotGridBot.Utils.Symbols
import Mathlib.Data.List.Induction

namespace SpotGridBot.Utils

/-- The enumerators of `Currency::Value` below `END_OF_FX`, in their order and each with its text;
the first is `NONE`. -/
def fxSymbols : List String :=
  ["", "USD", "EUR", "GBP", "CHF", "JPY", "AUD", "CAD", "CNY", "SEK", "NZD", "MXN", "SGD", "HKD",
    "NOK", "KRW", "TRY", "RUB", "INR", "BRL", "ZAR", "DKK", "ILS", "PLN", "CZK", "NGN", "HUF",
    "CNH", "GHS", "KES", "RON", "BGN", "TWD", "ZMW", "XAG", "XAU", "XPD", "XPT", "XAF", "SAR",
    "KWD", "QAR", "OMR", "BHD", "MYR", "THB", "PKR", "MAD", "BGD", "AED", "IDR", "EGP", "IQD",
    "UAH", "VND", "JOD", "XOF", "LKR", "TND", "UGX", "UZS", "DZD", "IRR", "DOP", "ISK", "HRK",
    "RSD", "PHP", "COP", "ARS"]

def invalidCurrency : String := "???"

def valToStrTable : List (Currency × String) :=
  fxSymbols.zipIdx.map (fun entry => (⟨entry.2⟩, entry.1)) ++ [(.invalid, invalidCurrency)]

namespace Registry

def inverse (table : List (Currency × String)) : List (String × Currency) :=
  table.foldl (fun map entry =>
    if (map.lookup entry.2).isSome then map else emplace entry.2 entry.1 map) []

def ofTable (table : List (Currency × String)) : Registry where
  valToStr c := table.lookup c
  strToVal := inverse table
  cpToPrecision _ := none

theorem mem_emplace {symbol : String} {value : Currency} {map : List (String × Currency)}
    {entry : String × Currency} : entry ∈ emplace symbol value map ↔
      entry = (symbol, value) ∨ entry ∈ map := by
  have parts := map.takeWhile_append_dropWhile (p := fun entry => decide (entry.1 < symbol))
  conv_rhs => rw [← parts]
  unfold emplace
  simp only [List.mem_append, List.mem_cons]
  tauto

theorem keys_emplace (symbol : String) (value : Currency) (map : List (String × Currency)) :
    ((emplace symbol value map).map Prod.fst).Perm (symbol :: map.map Prod.fst) := by
  have parts := map.takeWhile_append_dropWhile (p := fun entry => decide (entry.1 < symbol))
  conv_rhs => rw [← parts]
  unfold emplace
  rw [List.map_append, List.map_append, List.map_cons]
  exact List.perm_middle

theorem inverse_spec {table : List (Currency × String)}
    (texts : (table.map Prod.snd).Nodup) :
    ((inverse table).map Prod.fst).Perm (table.map Prod.snd) ∧
      ∀ symbol value, (symbol, value) ∈ inverse table ↔ (value, symbol) ∈ table := by
  induction table using List.reverseRecOn with
  | nil => exact ⟨List.Perm.refl _, fun symbol value => by simp [inverse]⟩
  | append_singleton table entry ih =>
      obtain ⟨value, symbol⟩ := entry
      rw [List.map_append, List.map_singleton, List.nodup_append_comm, List.singleton_append,
        List.nodup_cons] at texts
      obtain ⟨keys, members⟩ := ih texts.2
      have absent : ¬ ((inverse table).lookup symbol).isSome := by
        rw [Option.not_isSome_iff_eq_none, List.lookup_eq_none_iff]
        intro entry member
        rw [bne_iff_ne]
        rintro rfl
        exact texts.1 (keys.mem_iff.mp (List.mem_map_of_mem member))
      have grown : inverse (table ++ [(value, symbol)]) = emplace symbol value (inverse table) := by
        unfold inverse at absent ⊢
        rw [List.foldl_append, List.foldl_cons, List.foldl_nil, if_neg absent]
      rw [grown]
      constructor
      · rw [List.map_append, List.map_singleton]
        exact (keys_emplace symbol value _).trans
          ((keys.cons symbol).trans (List.perm_append_singleton symbol _).symm)
      · intro symbol' value'
        rw [mem_emplace, members, List.mem_append, List.mem_singleton, Prod.mk.injEq, Prod.mk.injEq]
        tauto

theorem ofTable_lookup {table : List (Currency × String)} (texts : (table.map Prod.snd).Nodup)
    {symbol : String} {value : Currency} :
    (ofTable table).strToVal.lookup symbol = some value ↔ (value, symbol) ∈ table := by
  obtain ⟨keys, members⟩ := inverse_spec texts
  rw [← members symbol value]
  exact ⟨Keyed.mem_of_lookup, Keyed.lookup_of_mem (keys.nodup_iff.mpr texts)⟩

theorem ofTable_bijective {table : List (Currency × String)}
    (values : (table.map Prod.fst).Nodup) (texts : (table.map Prod.snd).Nodup) :
    (ofTable table).Bijective := by
  intro symbol value
  rw [ofTable_lookup texts]
  exact ⟨Keyed.lookup_of_mem values, Keyed.mem_of_lookup⟩

variable {reg : Registry}

theorem parse_three {base quote : List Char} (three : base.length = 3) (three' : quote.length = 3)
    (valid : CurrencyPair.Valid ⟨reg.currency base, reg.currency quote⟩) :
    reg.parse (base ++ quote) = ⟨reg.currency base, reg.currency quote⟩ := by
  have nonempty : ¬ (base ++ quote).isEmpty = true := by
    rw [List.isEmpty_iff]
    rintro empty
    simp [List.append_eq_nil_iff.mp empty] at three
  have first : (base ++ quote).take 3 = base := by rw [← three, List.take_left]
  have second : (base ++ quote).drop 3 = quote := by rw [← three, List.drop_left]
  unfold parse
  dsimp only
  rw [first, second, if_neg nonempty, if_pos ⟨by rw [List.length_append, three, three'], valid⟩]

theorem checked_of_three (members : ∀ entry ∈ reg.strToVal, reg.strToVal.lookup entry.1 = some entry.2)
    (three : ∀ entry ∈ reg.strToVal, entry.2.Valid → entry.1.toList.length = 3) :
    reg.checkRegisteredCurrencies = true := by
  unfold checkRegisteredCurrencies
  refine List.all_eq_true.mpr fun iter1 member => List.all_eq_true.mpr fun iter2 member' => ?_
  split
  next compared =>
    have base : reg.currency iter1.1.toList = iter1.2 := by simp [currency, members iter1 member]
    have quote : reg.currency iter2.1.toList = iter2.2 := by simp [currency, members iter2 member']
    have valid : CurrencyPair.Valid ⟨iter1.2, iter2.2⟩ := ⟨compared.1, compared.2.1⟩
    have read := reg.parse_three (three iter1 member compared.1) (three iter2 member' compared.2.1)
      (base ▸ quote ▸ valid)
    simp [read, base, quote, valid]
  next => rfl

theorem ofTable_checked {table : List (Currency × String)} (texts : (table.map Prod.snd).Nodup)
    (three : ∀ entry ∈ table, entry.1.Valid → entry.2.toList.length = 3) :
    (ofTable table).checkRegisteredCurrencies = true := by
  obtain ⟨keys, members⟩ := inverse_spec texts
  refine checked_of_three (fun entry member => ?_) fun entry member valid => ?_
  · exact Keyed.lookup_of_mem (keys.nodup_iff.mpr texts) member
  · exact three _ ((members entry.1 entry.2).mp member) valid

def valToStrMapping : Registry := ofTable valToStrTable

theorem valToStrTable_values : (valToStrTable.map Prod.fst).Nodup := by
  decide +kernel

theorem valToStrTable_texts : (valToStrTable.map Prod.snd).Nodup := by
  decide +kernel

theorem valToStrMapping_bijective : valToStrMapping.Bijective :=
  ofTable_bijective valToStrTable_values valToStrTable_texts

theorem valToStrMapping_checked : valToStrMapping.checkRegisteredCurrencies = true :=
  ofTable_checked valToStrTable_texts (by decide +kernel)

end Registry
end SpotGridBot.Utils
