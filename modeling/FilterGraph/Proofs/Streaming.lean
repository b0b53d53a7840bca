import FilterGraph.Proofs.CompileCommand
import FilterGraph.Text.Cut

/-!
# What is reported of a process while it runs

The output of a process is cut into messages, and nothing of it is lost: each message with its end
put back, they are the output again, up to a line feed that the output may lack at its end.

* `Progress.fromLines`: the messages as a reader makes them that takes line after line, parts each
  line at its carriage returns and holds what is open; **`messagesFrom_eq_fromLines`**: they are
  those of `Progress.messages`;
* `Progress.ended`, `Progress.closed`: a message with its end, a text with a line feed at its end
  where an end is missing; **`flatMap_endedChars`**: the messages with their ends are the text,
  closed;
* `message_shape`: where line ends can stand in a message;
* **`streaming_loses_nothing`**: all of it for a tool whose output is reported, and what a terminal
  shows of it.
-/

namespace FilterGraph

namespace Progress

/-! ## 1. Line by line -/

/-- The lines of a text after the characters `held` of an open line, each with its line feed, which
only the last may lack. -/
def linesFrom (held : List Char) : List Char → List (List Char)
  | [] => if held.isEmpty then [] else [held]
  | c :: r =>
    if c = '\n' then (held ++ ['\n']) :: linesFrom [] r
    else linesFrom (held ++ [c]) r

/-- The messages that the parts of a line end, from the second part on, and what is then open. -/
def feedParts (held : List Char) : List (List Char) → List (List Char) × List Char
  | [] => ([], held)
  | p :: ps => ((held ++ ['\r']) :: (feedParts p ps).1, (feedParts p ps).2)

/-- The messages that the carriage returns of a line end, and what is then open. -/
def feed (held line : List Char) : List (List Char) × List Char :=
  match Text.pieces '\r' line with
  | [] => ([], held)
  | p :: ps => feedParts (held ++ p) ps

/-- The messages of some lines; a line feed ends what is open, and what is open after the last line
is a message unless it is empty. -/
def fromLines (held : List Char) : List (List Char) → List (List Char)
  | [] => if held.isEmpty then [] else [held]
  | l :: ls =>
    let (messages, buffer) := feed held l
    if buffer.getLast? = some '\n' then messages ++ buffer.dropLast :: fromLines [] ls
    else messages ++ fromLines buffer ls

variable (held : List Char)

theorem feed_nil : feed held [] = ([], held) := by
  simp [feed, Text.pieces, feedParts]

theorem feed_return (r : List Char) :
    feed held ('\r' :: r) = ((held ++ ['\r']) :: (feed [] r).1, (feed [] r).2) := by
  unfold feed
  rw [Text.pieces, if_pos rfl]
  cases h : Text.pieces '\r' r with
  | nil => exact absurd h (Text.pieces_ne_nil _ _)
  | cons p ps => simp [feedParts]

theorem feed_cons {c : Char} (h : c ≠ '\r') (r : List Char) :
    feed held (c :: r) = feed (held ++ [c]) r := by
  unfold feed
  rw [Text.pieces, if_neg h]
  cases hp : Text.pieces '\r' r with
  | nil => exact absurd hp (Text.pieces_ne_nil _ _)
  | cons p ps => simp

/-- A character that is no carriage return is held at the end of a line. -/
theorem feed_snoc {c : Char} (h : c ≠ '\r') (l : List Char) :
    feed held (l ++ [c]) = ((feed held l).1, (feed held l).2 ++ [c]) := by
  induction l generalizing held with
  | nil => rw [List.nil_append, feed_cons held h, feed_nil, feed_nil]
  | cons b l ih =>
    rw [List.cons_append]
    by_cases hb : b = '\r'
    · subst hb
      rw [feed_return, feed_return, ih]
    · rw [feed_cons held hb, feed_cons held hb, ih]

/-- What is open after a line without a line feed holds none. -/
theorem newline_not_mem_feed {held l : List Char} (hh : '\n' ∉ held) (hl : '\n' ∉ l) :
    '\n' ∉ (feed held l).2 := by
  induction l generalizing held with
  | nil => rwa [feed_nil]
  | cons b l ih =>
    rw [List.mem_cons, not_or] at hl
    by_cases hb : b = '\r'
    · subst hb
      rw [feed_return]
      exact ih List.not_mem_nil hl.2
    · rw [feed_cons held hb]
      refine ih ?_ hl.2
      simp [hh, hl.1]

/-- **Within a line the messages end at the carriage returns.** -/
theorem messagesFrom_append {l : List Char} (hl : '\n' ∉ l) (r : List Char) :
    messagesFrom held (l ++ r) = (feed held l).1 ++ messagesFrom (feed held l).2 r := by
  induction l generalizing held with
  | nil => rw [feed_nil]; rfl
  | cons b l ih =>
    rw [List.mem_cons, not_or] at hl
    rw [List.cons_append, messagesFrom, if_neg (Ne.symm hl.1)]
    by_cases hb : b = '\r'
    · subst hb
      rw [if_pos rfl, feed_return, ih _ hl.2]
      rfl
    · rw [if_neg hb, feed_cons held hb, ih _ hl.2]

/-- **The messages of a text are those of its lines**, read one after the other with what is open
held from part to part. -/
theorem messagesFrom_eq_fromLines {l : List Char} (h : '\n' ∉ l) (cs : List Char) :
    messagesFrom [] (l ++ cs) = fromLines [] (linesFrom l cs) := by
  induction cs generalizing l with
  | nil =>
    rw [messagesFrom_append [] h, linesFrom]
    cases l with
    | nil => rw [feed_nil]; rfl
    | cons b l =>
      have last : (feed [] (b :: l)).2.getLast? ≠ some '\n' := fun heq =>
        newline_not_mem_feed List.not_mem_nil h (List.mem_of_getLast? heq)
      rw [List.isEmpty_cons, if_neg Bool.false_ne_true, fromLines]
      dsimp only
      rw [if_neg last]
      rfl
  | cons c cs ih =>
    rw [linesFrom]
    by_cases hc : c = '\n'
    · subst hc
      have rest := ih (l := []) List.not_mem_nil
      rw [List.nil_append] at rest
      rw [if_pos rfl, fromLines, feed_snoc [] (by decide), messagesFrom_append [] h, messagesFrom,
        if_pos rfl, rest]
      simp
    · rw [if_neg hc, ← ih (l := l ++ [c]) (by simp [h, Ne.symm hc]), List.append_assoc]
      rfl

/-! ## 2. Messages with their ends -/

/-- The lines that a reader takes are the text. -/
theorem flatten_linesFrom (cs : List Char) : (linesFrom held cs).flatten = held ++ cs := by
  induction cs generalizing held with
  | nil => cases held <;> rfl
  | cons c cs ih =>
    rw [linesFrom]
    by_cases hc : c = '\n'
    · rw [if_pos hc, List.flatten_cons, ih, hc, List.nil_append, List.append_assoc]
      rfl
    · rw [if_neg hc, ih, List.append_assoc]
      rfl

/-- A message with its end: a carriage return that it has, or else a line feed. -/
def endedChars (m : List Char) : List Char :=
  if m.getLast? = some '\r' then m else m ++ ['\n']

/-- A text with a line feed at its end, unless it is empty or a line end stands there. -/
def closedChars (t : List Char) : List Char :=
  if t = [] ∨ t.getLast? = some '\n' ∨ t.getLast? = some '\r' then t else t ++ ['\n']

variable {held}

/-- Where a line end stands only what follows can lack one. -/
theorem closedChars_append {c : Char} (hc : c = '\n' ∨ c = '\r') (r : List Char) :
    closedChars (held ++ c :: r) = held ++ c :: closedChars r := by
  cases r with
  | nil => simp [closedChars, hc]
  | cons b r =>
    have last : (held ++ c :: b :: r).getLast? = (b :: r).getLast? := by
      rw [List.getLast?_append_cons, List.getLast?_cons_cons]
    unfold closedChars
    rw [last]
    by_cases ends : (b :: r).getLast? = some '\n' ∨ (b :: r).getLast? = some '\r'
    · simp [ends]
    · simp [ends]

theorem endedChars_of_not_mem {m : List Char} (h : '\r' ∉ m) : endedChars m = m ++ ['\n'] :=
  if_neg fun last => h (List.mem_of_getLast? last)

theorem endedChars_return (m : List Char) : endedChars (m ++ ['\r']) = m ++ ['\r'] :=
  if_pos List.getLast?_concat

/-- A message that is still open at the end of a text. -/
theorem closedChars_of_not_mem (hn : '\n' ∉ held) (hr : '\r' ∉ held) (h : held ≠ []) :
    closedChars held = held ++ ['\n'] := by
  refine if_neg ?_
  rintro (empty | last | last)
  · exact h empty
  · exact hn (List.mem_of_getLast? last)
  · exact hr (List.mem_of_getLast? last)

/-- **The messages with their ends are the text, closed.** Here `held` is open, which no line end
is part of. -/
theorem flatMap_endedChars (hn : '\n' ∉ held) (hr : '\r' ∉ held) (cs : List Char) :
    (messagesFrom held cs).flatMap endedChars = closedChars (held ++ cs) := by
  induction cs generalizing held with
  | nil =>
    rw [messagesFrom, List.append_nil]
    by_cases h : held = []
    · subst h
      rfl
    · rw [closedChars_of_not_mem hn hr h, if_neg (by simpa using h), List.flatMap_singleton,
        endedChars_of_not_mem hr]
  | cons c cs ih =>
    rw [messagesFrom]
    by_cases hc : c = '\n'
    · rw [if_pos hc, List.flatMap_cons, ih List.not_mem_nil List.not_mem_nil,
        closedChars_append (.inl hc), endedChars_of_not_mem hr, hc, List.append_assoc]
      rfl
    by_cases hb : c = '\r'
    · rw [if_neg hc, if_pos hb, List.flatMap_cons, ih List.not_mem_nil List.not_mem_nil,
        closedChars_append (.inr hb), endedChars_return, hb, List.append_assoc]
      rfl
    · rw [if_neg hc, if_neg hb, ih (by simp [hn, Ne.symm hc]) (by simp [hr, Ne.symm hb]),
        List.append_assoc]
      rfl

theorem shape_of_not_mem (hn : '\n' ∉ held) (hr : '\r' ∉ held) :
    '\n' ∉ held ∧ '\r' ∉ held.dropLast :=
  ⟨hn, fun mem => hr (List.mem_of_mem_dropLast mem)⟩

/-- **Where line ends can stand in a message**: a carriage return at its end, and nowhere else. -/
theorem message_shape (hn : '\n' ∉ held) (hr : '\r' ∉ held) (cs : List Char) :
    ∀ m ∈ messagesFrom held cs, '\n' ∉ m ∧ '\r' ∉ m.dropLast := by
  induction cs generalizing held with
  | nil =>
    rw [messagesFrom]
    split
    · exact fun m hm => absurd hm List.not_mem_nil
    · exact fun m hm => List.mem_singleton.mp hm ▸ shape_of_not_mem hn hr
  | cons c cs ih =>
    have fresh := ih List.not_mem_nil List.not_mem_nil
    rw [messagesFrom]
    by_cases hc : c = '\n'
    · rw [if_pos hc]
      exact List.forall_mem_cons.mpr ⟨shape_of_not_mem hn hr, fresh⟩
    by_cases hb : c = '\r'
    · rw [if_neg hc, if_pos hb]
      refine List.forall_mem_cons.mpr ⟨⟨by simp [hn], ?_⟩, fresh⟩
      rwa [List.dropLast_concat]
    · rw [if_neg hc, if_neg hb]
      exact ih (by simp [hn, Ne.symm hc]) (by simp [hr, Ne.symm hb])

/-- A message with its end. -/
def ended (m : String) : String := .ofList (endedChars m.toList)

/-- A text with a line feed at its end where an end is missing. -/
def closed (t : String) : String := .ofList (closedChars t.toList)

/-- The messages of a text with their ends are the text, closed. -/
theorem join_ended_messages (t : String) : String.join ((messages t).map ended) = closed t := by
  apply String.toList_injective
  have chars (m : List Char) : ((ended ∘ String.ofList) m).toList = endedChars m := by
    simp [ended]
  rw [String.toList_join, messages, List.map_map, List.flatMap_map, closed, String.toList_ofList]
  simp only [chars]
  exact flatMap_endedChars List.not_mem_nil List.not_mem_nil _

theorem shape_of_mem_messages {t m : String} (h : m ∈ messages t) :
    '\n' ∉ m.toList ∧ '\r' ∉ m.toList.dropLast := by
  obtain ⟨cs, hcs, rfl⟩ := List.mem_map.mp h
  rw [String.toList_ofList]
  exact message_shape List.not_mem_nil List.not_mem_nil _ cs hcs

end Progress

/-! ## 3. On the terminal and in a session -/

/-- A terminal shows a message of the shape that messages have with its end. -/
theorem Event.printedStatus_eq_ended {m : String}
    (h : '\n' ∉ m.toList ∧ '\r' ∉ m.toList.dropLast) : printedStatus m = Progress.ended m := by
  have returns : '\r' ∈ m.toList ↔ m.toList.getLast? = some '\r' := by
    refine ⟨fun mem => ?_, List.mem_of_getLast?⟩
    have ne : m.toList ≠ [] := List.ne_nil_of_mem mem
    rw [← List.dropLast_append_getLast ne, List.mem_append, List.mem_singleton] at mem
    rw [List.getLast?_eq_some_getLast ne, mem.resolve_left h.2]
  unfold printedStatus Progress.ended Progress.endedChars
  by_cases last : m.toList.getLast? = some '\r'
  · simp [h.1, returns, last]
  · simp [h.1, returns, last]

/-- The text of status messages on the standard output. -/
theorem Event.standardOutput_status (ms : List String) :
    standardOutput (ms.map .status) = String.join (ms.map printedStatus) := by
  unfold standardOutput
  rw [List.map_map]
  rfl

/-- The session in which the next process is `c`. -/
def Session.facing (s : Session) (c : Child) : Session := { s with children := c :: s.children }

/-- **Streaming loses nothing.** For any text `T` that a process prints, and any code it ends with:

* the caller is given `T`, unless the code is not 0, and is told the messages of `T`, in order; where
  the host does not take the vector there is no process, no message of it and nothing to give;
* these are what a reader finds who takes the lines of `T` one by one and holds what is open;
* no message has a line feed, and none has a carriage return other than as its last character;
* the messages with their ends are `T`, up to a line feed where `T` stands open at its end;
* that is what they are on a terminal. -/
theorem streaming_loses_nothing (announcing : Bool) (executable : String) (args : List String)
    (s : Session) (T : String) (code : Int) :
    (s.host.takes (executable :: args) = true →
      (runTool ⟨true, announcing⟩ executable args).on (s.facing (.ran T code)) =
        (if code = 0 then .ok T else .error (.failed (executable :: args) code),
          (s.facing (.ran T code)).ran (executable :: args)
            (Reporting.announcement ⟨true, announcing⟩ (executable :: args) ++
              (Progress.messages T).map .status))) ∧
      (s.host.takes (executable :: args) = false →
        (runTool ⟨true, announcing⟩ executable args).on (s.facing (.ran T code)) =
          (.error .nullInArgument, (s.facing (.ran T code)).ran (executable :: args)
            (Reporting.announcement ⟨true, announcing⟩ (executable :: args)))) ∧
      (Progress.linesFrom [] T.toList).flatten = T.toList ∧
      Progress.messages T =
        (Progress.fromLines [] (Progress.linesFrom [] T.toList)).map String.ofList ∧
      (∀ m ∈ Progress.messages T, '\n' ∉ m.toList ∧ '\r' ∉ m.toList.dropLast) ∧
      String.join ((Progress.messages T).map Progress.ended) = Progress.closed T ∧
      Event.standardOutput ((Progress.messages T).map .status) = Progress.closed T := by
  have shape (m : String) (h : m ∈ Progress.messages T) := Progress.shape_of_mem_messages h
  refine ⟨fun ht => ?runs, fun ht => ?barred, ?read, ?lines, shape,
    Progress.join_ended_messages T, ?shown⟩
  case runs =>
    have next : (s.facing (.ran T code)).next (executable :: args) = .child (.ran T code) :=
      if_pos ht
    have reports : (Start.child (.ran T code)).reports ⟨true, announcing⟩ executable =
        (Progress.messages T).map .status := by simp [Start.reports]
    rw [on_runTool, next, reports]
    rfl
  case barred =>
    have next : (s.facing (.ran T code)).next (executable :: args) = .barred :=
      if_neg (Bool.eq_false_iff.mp ht)
    rw [on_runTool, next]
    exact congrArg _ (congrArg _ (List.append_nil _))
  case read => exact Progress.flatten_linesFrom [] T.toList
  case lines =>
    exact congrArg _ (Progress.messagesFrom_eq_fromLines List.not_mem_nil T.toList)
  case shown =>
    rw [Event.standardOutput_status, ← Progress.join_ended_messages]
    exact congrArg _ (List.map_congr_left fun m hm => Event.printedStatus_eq_ended (shape m hm))

end FilterGraph
