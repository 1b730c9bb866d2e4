/-
**Console commands about currencies, rates and routes.**
-/
import WalletLedger.Console.Basic
import WalletLedger.Ledger.Conversion

set_option autoImplicit false

namespace WalletLedger.Console

open Ledger

variable {σ : Type} [Stores σ]

def currencyCommand (d : Document) : String → Dialog σ Document
  | "currency.get" => do
    let symbol ← text d "symbol"
    answer (.ofOption Currency.toDocument) (ask (.findCurrency symbol))
  | "currency.require" => do
    let symbol ← text d "symbol"
    answer Currency.toDocument (requireActive symbol)
  | "currency.list" => answer (.ofList Currency.toDocument) (ask .listCurrencies)
  | "currency.add" => do
    let currency ← given (d.need "currency" Currency.ofDocument?)
    done (ask (.addCurrency currency))
  | "currency.set_active" => do
    let symbol ← text d "symbol"
    let on ← switch d "on"
    done (ask (.setActive symbol on))
  | "currency.set_transitive" => do
    let symbol ← text d "symbol"
    let on ← switch d "on"
    done (ask (.setTransitive symbol on))
  | _ => throw .unknown

/-- The two ends of a conversion. -/
def ends (d : Document) : Dialog σ (String × String) := do
  let source ← text d "source"
  let dest ← text d "dest"
  return (source, dest)

def graphCommand (t : Terms) (d : Document) : String → Dialog σ Document
  | "graph.on_currency_updated" => done forgetGraph
  | "graph.policy" => return t.policy.toDocument
  | "graph.rates" => answer (.ofList Rate.toDocument) (ask .listRates)
  | "graph.rate" => do
    let (source, dest) ← ends d
    answer (.ofOption Rate.toDocument) (ask (.findRate source dest))
  | "graph.add_rate" => do
    let rate ← given (d.need "rate" Rate.ofDocument?)
    let ignoreIfExists ← switch d "ignore_if_exists"
    done (addRate rate ignoreIfExists)
  | "graph.update_rate" => do
    let rate ← given (d.need "rate" Rate.ofDocument?)
    answer (.ofList Rate.toDocument) (updateRate rate)
  | "graph.delete_rate" => do
    let (source, dest) ← ends d
    answer (.ofList Rate.toDocument) (deleteRate source dest)
  | "graph.forbidden" => answer (.ofList ForbiddenPair.toDocument) (ask .listForbidden)
  | "graph.add_forbidden" => do
    let pair ← given (d.need "pair" ForbiddenPair.ofDocument?)
    done (forbid pair)
  | "graph.delete_forbidden" => do
    let pair ← given (d.need "pair" ForbiddenPair.ofDocument?)
    answer (.ofList ForbiddenPair.toDocument) (allow pair)
  | "graph.transitive" => answer (.ofList .text) transitiveSymbols
  | "graph.add_transitive" => do
    let symbols ← given (d.need "symbols" (Document.list? Document.text?))
    done (addTransitive symbols)
  | "graph.delete_transitive" => do
    let symbols ← given (d.need "symbols" (Document.list? Document.text?))
    answer (.ofList .text) (deleteTransitive symbols)
  | "graph.routes" => do
    let (source, dest) ← ends d
    let limit ← natOr d "limit" 10
    answer (.ofList Route.summary) (routes t source dest limit)
  | "graph.first_route" => do
    let (source, dest) ← ends d
    answer Route.summary (firstRoute t source dest)
  | "graph.calculate" => do
    let symbol ← text d "symbol"
    let amount ← decimal d "amount"
    let dest ← text d "dest"
    answer Amount.toDocument (convert t ⟨symbol, amount⟩ dest)
  | _ => throw .unknown

end WalletLedger.Console
