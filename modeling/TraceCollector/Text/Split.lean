/-!
# Parts of a text

`splitWhere` cuts a text at every character that a test accepts; `afterFirst?` looks for a phrase.
-/

namespace TraceCollector.Text

/-- The parts between the characters that `isEnd` accepts; there is always at least one part. -/
def splitWhere (isEnd : Char → Bool) : List Char → List (List Char)
  | [] => [[]]
  | c :: rest =>
    if isEnd c then [] :: splitWhere isEnd rest
    else
      match splitWhere isEnd rest with
      | [] => [[c]]
      | part :: parts => (c :: part) :: parts

/-- What follows the first occurrence of `phrase`. -/
def afterFirst? (phrase : List Char) : List Char → Option (List Char)
  | [] => if phrase = [] then some [] else none
  | c :: rest =>
    if phrase.isPrefixOf (c :: rest) then some ((c :: rest).drop phrase.length)
    else afterFirst? phrase rest

end TraceCollector.Text
