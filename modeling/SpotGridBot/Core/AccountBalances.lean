import SpotGridBot.Core.ConnectionManager
import SpotGridBot.Core.JSONMessage
import SpotGridBot.Core.OrderManager
import SpotGridBot.Utils.CurrencyConfig

namespace SpotGridBot.Core
open Utils

section Accounts
variable {α : Type} (parse : String → Option Members) (print : Json → String)
  (stod : String → Option α)

def readAccount (account : Json) : Option (String × α) :=
  match account.extract with
  | none => none
  | some accountObj =>
      let currency := Members.optValue print accountObj "currency" ""
      let availableStr :=
        match accountObj.lookup "available_balance" with
        | some (.object balanceObj) => Members.optValue print balanceObj "value" "0"
        | _ => Members.optValue print accountObj "available_balance" "0"
      if currency = "" then none
      else (stod availableStr).map fun balance => (currency, balance)

def readAccounts (accountsJson : String) : List (String × α) :=
  let accounts := (parse accountsJson).bind fun response =>
    Members.getArray response "accounts"
  (accounts.getD []).filterMap (readAccount print stod)

def initializeBalances (reg : Registry) (m : OrderManager α) (connection : Option ConnectionClass)
    (accountsJson : String) : OrderManager α :=
  if connection = some .coinbaseORD then
    (readAccounts parse print stod accountsJson).foldl
      (fun m account => m.setBalance (reg.currency account.1.toList) account.2) m
  else m

def lastAmount (mine : String → Prop) [DecidablePred mine] (accounts : List (String × α)) :
    Option α :=
  (accounts.reverse.find? fun account => mine account.1).map Prod.snd

variable {reg : Registry} (m : OrderManager α) (accountsJson : String)

theorem initializeBalances_balance (c : Currency) :
    (initializeBalances parse print stod reg m (some .coinbaseORD) accountsJson).balance c =
      (lastAmount (fun text => reg.currency text.toList = c)
        (readAccounts parse print stod accountsJson)).getD (m.balance c) := by
  have balances (accounts : List (String × α)) (m : OrderManager α) :
      (accounts.foldl (fun m account => m.setBalance (reg.currency account.1.toList) account.2)
        m).balance = accounts.foldl (fun balance account =>
          Function.update balance (reg.currency account.1.toList) account.2) m.balance := by
    induction accounts generalizing m with
    | nil => rfl
    | cons account accounts ih => exact ih _
  rw [initializeBalances, if_pos rfl, balances, Keyed.foldl_update]
  rfl

theorem currency_eq_iff (settled : reg.Settled) {c : Currency} (known : c ≠ .invalid)
    {text : String} : reg.currency text.toList = c ↔ reg.valToStr c = some text := by
  rw [← settled.bijective text c, Registry.currency, String.ofList_toList]
  cases found : reg.strToVal.lookup text with
  | some value => simp
  | none =>
      have nonempty : text.toList.isEmpty = false := by
        rw [List.isEmpty_eq_false_iff]
        intro empty
        obtain rfl : text = "" := String.toList_inj.mp empty
        rw [(settled.bijective "" .none).mpr settled.empty] at found
        cases found
      simp [nonempty, Ne.symm known]

theorem currency_invalid_iff (settled : reg.Settled) {text : String} :
    reg.currency text.toList = .invalid ↔
      reg.strToVal.lookup text = none ∨ text = invalidCurrency := by
  have others := settled.bijective text .invalid
  rw [settled.invalid, Option.some.injEq] at others
  rw [Registry.currency, String.ofList_toList]
  cases found : reg.strToVal.lookup text with
  | some value =>
      rw [found, Option.some.injEq] at others
      simp [others, eq_comm]
  | none =>
      have nonempty : text.toList.isEmpty = false := by
        rw [List.isEmpty_eq_false_iff]
        intro empty
        obtain rfl : text = "" := String.toList_inj.mp empty
        rw [(settled.bijective "" .none).mpr settled.empty] at found
        cases found
      simp [nonempty]

/-- Whatever was loaded and registered before, a currency has the balance of the last account under
its symbol, and the invalid currency that of the last account under none. -/
theorem initializeBalances_last (calls : List CurrencyConfig.Call) :
    (∀ c, c ≠ .invalid →
      (initializeBalances parse print stod (CurrencyConfig.registry calls) m (some .coinbaseORD)
          accountsJson).balance c =
        (lastAmount (fun text => (CurrencyConfig.registry calls).valToStr c = some text)
          (readAccounts parse print stod accountsJson)).getD (m.balance c)) ∧
      (initializeBalances parse print stod (CurrencyConfig.registry calls) m (some .coinbaseORD)
          accountsJson).balance .invalid =
        (lastAmount (fun text => (CurrencyConfig.registry calls).strToVal.lookup text = none ∨
            text = invalidCurrency)
          (readAccounts parse print stod accountsJson)).getD (m.balance .invalid) := by
  have settled := CurrencyConfig.run_settled calls
  constructor
  · intro c known
    rw [initializeBalances_balance]
    simp only [currency_eq_iff settled known]
  · rw [initializeBalances_balance]
    simp only [currency_invalid_iff settled]

end Accounts

example : readAccounts (JSONDocument.parse fun _ => "") (fun _ => "") stod
    "\x7b\"accounts\":[\x7b\"currency\":\"USD\",\"available_balance\":\x7b\"value\":\"1.5\"\x7d\x7d,
      \x7b\"currency\":\"BTC\",\"available_balance\":null\x7d,7]\x7d" =
    [("USD", 3 / 2), ("BTC", 0)] := by
  decide +kernel

end SpotGridBot.Core
