import SpotGridBot.Utils.FixTypes
import Mathlib.Logic.Function.Basic

namespace SpotGridBot.Feed
open Utils

structure QuoteInfo where
  key : ℤ
  cp : CurrencyPair
  entryType : QuoteType
deriving DecidableEq, Repr

abbrev ActiveQuoteTable := String → Option QuoteInfo

namespace ActiveQuoteTable
variable (table : ActiveQuoteTable)

def findQuoteInfo (refId : String) : Option QuoteInfo :=
  if refId = "" then none else table refId

/-- `map::emplace`, and `map::insert` of a node: a key that is there keeps its value. -/
def emplace (id : String) (info : QuoteInfo) : ActiveQuoteTable :=
  match table id with
  | some _ => table
  | none => Function.update table id (some info)

def replaceQuoteInfo (refId newId : String) (newQuote : QuoteInfo) :
    ActiveQuoteTable × Option QuoteInfo :=
  match table.findQuoteInfo refId with
  | some lastQuote =>
      if newId ≠ refId then
        (emplace (Function.update table refId none) newId newQuote, some lastQuote)
      else (Function.update table refId (some newQuote), some lastQuote)
  | none => (table.emplace newId newQuote, none)

def removeQuoteInfo (refId : String) : ActiveQuoteTable × Option QuoteInfo :=
  match table.findQuoteInfo refId with
  | some lastQuote => (Function.update table refId none, some lastQuote)
  | none => (table, none)

variable (refId : String)

theorem isSome_update_none (id : String) :
    (fun i => (Function.update table id none i).isSome) =
      Function.update (fun i => (table i).isSome) id false := by
  funext i
  by_cases here : i = id
  · simp [here]
  · simp [here]

theorem isSome_update_some (id : String) (info : QuoteInfo) :
    (fun i => (Function.update table id (some info) i).isSome) =
      Function.update (fun i => (table i).isSome) id true := by
  funext i
  by_cases here : i = id
  · simp [here]
  · simp [here]

theorem isSome_emplace (id : String) (info : QuoteInfo) :
    (fun i => (table.emplace id info i).isSome) =
      Function.update (fun i => (table i).isSome) id true := by
  unfold emplace
  cases present : table id with
  | none => exact isSome_update_some table id info
  | some old =>
      funext i
      by_cases here : i = id
      · simp [here, present]
      · simp [here]

theorem isSome_replaceQuoteInfo (newId : String) (newQuote : QuoteInfo) :
    (fun i => ((table.replaceQuoteInfo refId newId newQuote).1 i).isSome) =
      Function.update (if (table.findQuoteInfo refId).isSome
        then Function.update (fun i => (table i).isSome) refId false
        else fun i => (table i).isSome) newId true := by
  unfold replaceQuoteInfo
  cases table.findQuoteInfo refId with
  | none => exact isSome_emplace table newId newQuote
  | some lastQuote =>
      by_cases same : newId = refId
      · subst same
        simp [isSome_update_some]
      · simp [same, isSome_emplace, isSome_update_none]

theorem isSome_removeQuoteInfo :
    (fun i => ((table.removeQuoteInfo refId).1 i).isSome) =
      if (table.findQuoteInfo refId).isSome
        then Function.update (fun i => (table i).isSome) refId false
        else fun i => (table i).isSome := by
  unfold removeQuoteInfo
  cases table.findQuoteInfo refId with
  | none => rfl
  | some lastQuote => exact isSome_update_none table refId

theorem replaceQuoteInfo_replaced (newId : String) (newQuote : QuoteInfo) :
    (table.replaceQuoteInfo refId newId newQuote).2 = table.findQuoteInfo refId := by
  unfold replaceQuoteInfo
  cases table.findQuoteInfo refId with
  | none => rfl
  | some lastQuote => by_cases same : newId = refId <;> simp [same]

theorem removeQuoteInfo_removed :
    (table.removeQuoteInfo refId).2 = table.findQuoteInfo refId := by
  unfold removeQuoteInfo
  cases table.findQuoteInfo refId with
  | _ => rfl

end ActiveQuoteTable

end SpotGridBot.Feed
