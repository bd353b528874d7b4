import Gosmith.Settings.Yaml.Token

namespace Gosmith.Settings.Yaml

inductive Node where
  | scalar (isPlain : Bool) (text : List Char)
  | list (items : List Node)
  | mapping (entries : List (Node × Node))
deriving Inhabited

namespace Node

def empty : Node :=
  .scalar true []

def isMissing (stops : List Token) (ts : List Token) : Bool :=
  ts.head?.any stops.contains

def afterComma? (first : Bool) (ts : List Token) : Option (List Token) :=
  if first then some ts
  else
    match ts with
    | .comma :: rest => some rest
    | _ => none

mutual

def read? (block : Bool) : Nat → List Token → Option (Node × List Token)
  | 0, _ => none
  | n + 1, ts =>
      match ts with
      | .scalar isPlain text :: rest => some (.scalar isPlain text, rest)
      | .flowListStart :: rest => (flowItems? true n rest).map fun (xs, rest) => (.list xs, rest)
      | .flowMappingStart :: rest =>
          (flowEntries? true n rest).map fun (es, rest) => (.mapping es, rest)
      | .listStart :: rest =>
          if block then (items? n rest).map fun (xs, rest) => (.list xs, rest) else none
      | .mappingStart :: rest =>
          if block then (entries? n rest).map fun (es, rest) => (.mapping es, rest) else none
      | _ => none

def part? : Nat → List Token → Option (Node × List Token)
  | 0, _ => none
  | n + 1, ts =>
      if isMissing [.key, .value, .blockEnd] ts then some (empty, ts)
      else if ts.head? == some .item then
        (looseItems? n ts).map fun (xs, rest) => (.list xs, rest)
      else read? true n ts

def items? : Nat → List Token → Option (List Node × List Token)
  | 0, _ => none
  | n + 1, ts =>
      match ts with
      | .item :: rest => do
          let (x, rest) ←
            if isMissing [.item, .blockEnd] rest then some (empty, rest) else read? true n rest
          let (xs, rest) ← items? n rest
          return (x :: xs, rest)
      | .blockEnd :: rest => some ([], rest)
      | _ => none

def looseItems? : Nat → List Token → Option (List Node × List Token)
  | 0, _ => none
  | n + 1, ts =>
      match ts with
      | .item :: rest => do
          let (x, rest) ←
            if isMissing [.item, .key, .value, .blockEnd] rest then some (empty, rest)
            else read? true n rest
          let (xs, rest) ← looseItems? n rest
          return (x :: xs, rest)
      | ts => some ([], ts)

def entries? : Nat → List Token → Option (List (Node × Node) × List Token)
  | 0, _ => none
  | n + 1, ts =>
      match ts with
      | .key :: rest => do
          let (k, rest) ← part? n rest
          let (v, rest) ← match rest with
            | .value :: rest => part? n rest
            | rest => some (empty, rest)
          let (es, rest) ← entries? n rest
          return ((k, v) :: es, rest)
      | .blockEnd :: rest => some ([], rest)
      | _ => none

def flowEntry? (stop : Token) : Nat → List Token → Option ((Node × Node) × List Token)
  | 0, _ => none
  | n + 1, ts => do
      let (k, rest) ←
        if isMissing [.value, .comma, stop] ts then some (empty, ts) else read? false n ts
      let (v, rest) ← match rest with
        | .value :: rest =>
            if isMissing [.comma, stop] rest then some (empty, rest) else read? false n rest
        | rest => some (empty, rest)
      return ((k, v), rest)

def flowItems? (first : Bool) : Nat → List Token → Option (List Node × List Token)
  | 0, _ => none
  | n + 1, ts =>
      match ts with
      | .flowListEnd :: rest => some ([], rest)
      | ts => do
          let ts ← afterComma? first ts
          match ts with
          | .flowListEnd :: rest => return ([], rest)
          | .key :: rest =>
              let (e, rest) ← flowEntry? .flowListEnd n rest
              let (xs, rest) ← flowItems? false n rest
              return (.mapping [e] :: xs, rest)
          | ts =>
              let (x, rest) ← read? false n ts
              let (xs, rest) ← flowItems? false n rest
              return (x :: xs, rest)

def flowEntries? (first : Bool) : Nat → List Token → Option (List (Node × Node) × List Token)
  | 0, _ => none
  | n + 1, ts =>
      match ts with
      | .flowMappingEnd :: rest => some ([], rest)
      | ts => do
          let ts ← afterComma? first ts
          match ts with
          | .flowMappingEnd :: rest => return ([], rest)
          | .key :: rest =>
              let (e, rest) ← flowEntry? .flowMappingEnd n rest
              let (es, rest) ← flowEntries? false n rest
              return (e :: es, rest)
          | ts =>
              let (k, rest) ← read? false n ts
              let (es, rest) ← flowEntries? false n rest
              return ((k, empty) :: es, rest)

end

def ofTokens? (ts : List Token) : Option Node := do
  let (node, rest) ← match ts with
    | [] => some (empty, [])
    | .documentStart :: rest =>
        if rest.isEmpty || isMissing [.documentStart, .documentEnd] rest then some (empty, rest)
        else read? true (2 * rest.length + 1) rest
    | ts => read? true (2 * ts.length + 1) ts
  if rest.all (· == .documentEnd) then return node else none

def key? : Node → Option Value
  | scalar true text => resolveKey? text
  | scalar false text => some (.text (String.ofList text))
  | _ => none

mutual

def value? : Node → Option Value
  | scalar true text => resolve? text
  | scalar false text => some (.text (String.ofList text))
  | list items => (values? items).map .list
  | mapping entries =>
      (pairs? entries).map fun es => .mapping (es.foldl (fun m (k, v) => Value.insert k v m) [])

def values? : List Node → Option (List Value)
  | [] => some []
  | x :: rest => do return (← x.value?) :: (← values? rest)

def pairs? : List (Node × Node) → Option (List (Value × Value))
  | [] => some []
  | (k, v) :: rest => do return (← k.key?, ← v.value?) :: (← pairs? rest)

end

end Node

end Gosmith.Settings.Yaml
