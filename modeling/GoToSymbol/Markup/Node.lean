import GoToSymbol.Markup.Token

namespace GoToSymbol.Markup

/-- The tree of a document. -/
inductive Node where
  | scalar (text : List Char) (plain : Bool)
  | sequence (items : List Node)
  | mapping (pairs : List (Node × Node))
deriving Inhabited

namespace Node

/-- What stands where nothing was written. -/
def empty : Node := .scalar [] true

/-- The tokens after which a place that was left out is empty. -/
def endsValue : List Token → Bool
  | [] => true
  | .key :: _ | .value :: _ | .blockEnd :: _ => true
  | _ => false

def endsEntry : List Token → Bool
  | .entry :: _ => true
  | ts => endsValue ts

def endsFlow : List Token → Bool
  | .separator :: _ | .flowMappingEnd :: _ | .flowSequenceEnd :: _ | .value :: _ => true
  | _ => false

/-- Past the separator that every item but the first needs. -/
def flowNext (first : Bool) (ts : List Token) : Option (List Token) :=
  if first then some ts
  else match ts with
    | .separator :: rest => some rest
    | _ => none

mutual
/-- Reads one node. Block collections count only where `block` holds, and entries without a
collection of their own only where `loose` holds; `fuel` bounds the reading. -/
def node : Nat → Bool → Bool → List Token → Option (Node × List Token)
  | 0, _, _, _ => none
  | fuel + 1, block, loose, ts =>
    match ts with
    | .scalar text plain :: rest => some (.scalar text plain, rest)
    | .flowSequence :: rest => (flowItems fuel true rest).map fun p => (.sequence p.1, p.2)
    | .flowMapping :: rest => (flowPairs fuel true rest).map fun p => (.mapping p.1, p.2)
    | .blockSequence :: rest =>
      if block then
        match blockItems fuel rest with
        | some (items, .blockEnd :: rest) => some (.sequence items, rest)
        | _ => none
      else none
    | .blockMapping :: rest =>
      if block then (blockPairs fuel rest).map fun p => (.mapping p.1, p.2) else none
    | .entry :: _ =>
      if loose then (blockItems fuel ts).map fun p => (.sequence p.1, p.2) else none
    | _ => none

/-- A node that may have been left out. -/
def optional : Nat → Bool → Bool → (List Token → Bool) → List Token →
    Option (Node × List Token)
  | 0, _, _, _, _ => none
  | fuel + 1, block, loose, left, ts => if left ts then some (empty, ts) else node fuel block loose ts

/-- The entries of a block sequence, as far as they go. -/
def blockItems : Nat → List Token → Option (List Node × List Token)
  | 0, _ => none
  | fuel + 1, ts =>
    match ts with
    | .entry :: rest => do
      let (item, rest) ← optional fuel true false endsEntry rest
      let (items, rest) ← blockItems fuel rest
      some (item :: items, rest)
    | _ => some ([], ts)

/-- The pairs of a block mapping and the end of it. -/
def blockPairs : Nat → List Token → Option (List (Node × Node) × List Token)
  | 0, _ => none
  | fuel + 1, ts =>
    match ts with
    | .blockEnd :: rest => some ([], rest)
    | .key :: rest => do
      let (key, rest) ← optional fuel true true endsValue rest
      let (value, rest) ← blockValue fuel rest
      let (pairs, rest) ← blockPairs fuel rest
      some ((key, value) :: pairs, rest)
    | _ => none

def blockValue : Nat → List Token → Option (Node × List Token)
  | 0, _ => none
  | fuel + 1, ts =>
    match ts with
    | .value :: rest => optional fuel true true endsValue rest
    | _ => some (empty, ts)

/-- The items of a flow sequence and the end of it; a pair among them is a mapping of its own. -/
def flowItems : Nat → Bool → List Token → Option (List Node × List Token)
  | 0, _, _ => none
  | fuel + 1, first, ts =>
    match ts with
    | .flowSequenceEnd :: rest => some ([], rest)
    | _ => do
      let rest ← flowNext first ts
      match rest with
      | .flowSequenceEnd :: rest => some ([], rest)
      | .key :: rest => do
        let (pair, rest) ← flowPair fuel rest
        let (items, rest) ← flowItems fuel false rest
        some (.mapping [pair] :: items, rest)
      | _ => do
        let (item, rest) ← node fuel false false rest
        let (items, rest) ← flowItems fuel false rest
        some (item :: items, rest)

/-- The pairs of a flow mapping and the end of it; an item without a colon has an empty value. -/
def flowPairs : Nat → Bool → List Token → Option (List (Node × Node) × List Token)
  | 0, _, _ => none
  | fuel + 1, first, ts =>
    match ts with
    | .flowMappingEnd :: rest => some ([], rest)
    | _ => do
      let rest ← flowNext first ts
      match rest with
      | .flowMappingEnd :: rest => some ([], rest)
      | .key :: rest => do
        let (pair, rest) ← flowPair fuel rest
        let (pairs, rest) ← flowPairs fuel false rest
        some (pair :: pairs, rest)
      | _ => do
        let (key, rest) ← node fuel false false rest
        let (pairs, rest) ← flowPairs fuel false rest
        some ((key, empty) :: pairs, rest)

/-- A pair after the mark of its key. -/
def flowPair : Nat → List Token → Option ((Node × Node) × List Token)
  | 0, _ => none
  | fuel + 1, ts => do
    let (key, rest) ← optional fuel false false endsFlow ts
    match rest with
    | .value :: rest => do
      let (value, rest) ← optional fuel false false endsFlow rest
      some ((key, value), rest)
    | _ => some ((key, empty), rest)
end

/-- The content of a document after its opening mark, if it has one. -/
def content (ts : List Token) : Option (Node × List Token) :=
  match ts with
  | [] | .documentStart :: _ | .documentEnd :: _ => some (empty, ts)
  | _ => node (8 * ts.length + 8) true false ts

/-- The tree of a text that holds one document; an empty text holds none. -/
def ofTokens? : List Token → Option (Option Node)
  | [] => some none
  | ts => do
    let (n, rest) ← match ts with
      | .documentStart :: rest => content rest
      | _ => node (8 * ts.length + 8) true false ts
    if (rest.dropWhile (· == .documentEnd)).isEmpty then some (some n) else none

end Node

end GoToSymbol.Markup
