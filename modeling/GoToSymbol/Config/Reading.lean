import GoToSymbol.Config.Plain
import GoToSymbol.Markup.Node

namespace GoToSymbol.Setting

open Markup

abbrev Members : Type := List (Option String × Setting)

/-- Adds a member; of a repeated key the last value counts, at the place of the first. -/
def setMember (key : Option String) (value : Setting) : Members → Members
  | [] => [(key, value)]
  | (k, v) :: rest =>
    if k.isSome && k = key then (k, value) :: rest else (k, v) :: setMember key value rest

def ofPairs (pairs : Members) : Members := pairs.foldl (fun ms m => setMember m.1 m.2 ms) []

/-- The members that a merge brings in: those of a mapping, or of several, the first of which counts
most. -/
def merged? : Setting → Option Members
  | mapping members => some members
  | list items =>
    (items.reverse.mapM fun item => match item with
      | mapping members => some members
      | _ => none).map List.flatten
  | _ => none

def isMerge : Node → Bool
  | .scalar cs plain => plain && cs == ['<', '<']
  | _ => false

/-- The key that a node stands for; collections are no keys. -/
def keyOf? : Node → Option (Option String)
  | .scalar cs plain =>
    let s := String.ofList cs
    if plain && s != "=" then
      match ofPlain s with
      | .text t => some (some t)
      | _ => some none
    else some (some s)
  | _ => none

mutual
/-- The setting that a tree stands for. -/
def ofNode? : Node → Option Setting
  | .scalar cs plain =>
    let s := String.ofList cs
    if plain then (if isReserved s then none else some (ofPlain s)) else some (.text s)
  | .sequence items => (ofNodes? items).map .list
  | .mapping pairs => (ofNodePairs? pairs).map fun p => .mapping (ofPairs (p.1 ++ p.2))

def ofNodes? : List Node → Option (List Setting)
  | [] => some []
  | n :: ns => do
    let v ← ofNode? n
    let vs ← ofNodes? ns
    some (v :: vs)

/-- The members that merges bring in, and the members of the mapping itself. -/
def ofNodePairs? : List (Node × Node) → Option (Members × Members)
  | [] => some ([], [])
  | p :: ps => do
    let value ← ofSecond? p
    let (brought, own) ← ofNodePairs? ps
    if isMerge p.1 then do
      let members ← merged? value
      some (members ++ brought, own)
    else do
      let key ← keyOf? p.1
      some (brought, (key, value) :: own)

def ofSecond? : Node × Node → Option Setting
  | (_, n) => ofNode? n
end

/-- The setting that a text stands for; an empty text stands for nothing. -/
def ofText? (s : List Char) : Option Setting := do
  let tokens ← Token.ofText? s
  match ← Node.ofTokens? tokens with
  | some n => ofNode? n
  | none => some .null

end GoToSymbol.Setting
