namespace Gosmith.Text

def splitWhen {α : Type} (p : α → Bool) : List α → List (List α)
  | [] => [[]]
  | a :: rest =>
      if p a then [] :: splitWhen p rest
      else match splitWhen p rest with
        | [] => [[a]]
        | part :: parts => (a :: part) :: parts

def lines (text : String) : List String :=
  (splitWhen (· == '\n') text.toList).map String.ofList

def count (c : Char) (cs : List Char) : Nat :=
  (cs.filter (· == c)).length

def lastLine (cs : List Char) : List Char :=
  (cs.reverse.takeWhile (· != '\n')).reverse

def chomp (cs : List Char) : List Char :=
  match cs.reverse with
  | '\n' :: rest => rest.reverse
  | _ => cs

def unifyNewlines : List Char → List Char
  | [] => []
  | '\r' :: '\n' :: rest => '\n' :: unifyNewlines rest
  | '\r' :: rest => '\n' :: unifyNewlines rest
  | c :: rest => c :: unifyNewlines rest

end Gosmith.Text
