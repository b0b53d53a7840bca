/-!
# Progress messages

The output of a process that is reported while the process runs is cut into messages: at the end of
each line, and after each carriage return, which stays at the end of its message.

* `messagesFrom` reads the text from left to right and holds the characters of the open message;
* a line feed ends a message and is dropped, a carriage return ends a message and is kept, and what
  is still open at the end of the text is a message unless it is empty.
-/

namespace FilterGraph.Progress

/-- The messages of a text after the characters `held` of an open message. -/
def messagesFrom (held : List Char) : List Char → List (List Char)
  | [] => if held.isEmpty then [] else [held]
  | c :: r =>
    if c = '\n' then held :: messagesFrom [] r
    else if c = '\r' then (held ++ ['\r']) :: messagesFrom [] r
    else messagesFrom (held ++ [c]) r

/-- The messages of a text. -/
def messages (s : String) : List String := (messagesFrom [] s.toList).map String.ofList

end FilterGraph.Progress
