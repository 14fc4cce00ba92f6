import Hseos.Foundation.JsonSize
import Hseos.Foundation.Number

/-! # The event channel

What the sandbox writes arrives in frames of arbitrary size. Its complete lines become events;
an event goes to the one waiter, or is queued for whoever asks next.
-/

namespace Hseos.Computer

/-! ## Lines -/

/-- The complete lines of a text, and the rest behind the last newline. -/
def completeLines : List Char → List (List Char) × List Char
  | [] => ([], [])
  | c :: rest =>
      let (lines, tail) := completeLines rest
      if c = '\n' then ([] :: lines, tail)
      else
        match lines with
        | [] => ([], c :: tail)
        | line :: others => ((c :: line) :: others, tail)

/-- Lines as they are written. -/
def linesText (lines : List (List Char)) : List Char := lines.flatMap (· ++ ['\n'])

section

variable {lines others : List (List Char)} {line text before after : List Char}

@[simp] theorem linesText_nil : linesText [] = [] := rfl

@[simp] theorem linesText_cons : linesText (line :: lines) = line ++ '\n' :: linesText lines := by
  simp [linesText]

@[simp] theorem linesText_append :
    linesText (lines ++ others) = linesText lines ++ linesText others :=
  List.flatMap_append

theorem completeLines_of_notMem (h : '\n' ∉ text) : completeLines text = ([], text) := by
  induction text with
  | nil => rfl
  | cons c rest ih =>
      rw [List.mem_cons, not_or] at h
      simp [completeLines, ih h.2, Ne.symm h.1]

theorem completeLines_cons_line (h : '\n' ∉ line) :
    completeLines (line ++ '\n' :: text) =
      (line :: (completeLines text).1, (completeLines text).2) := by
  induction line with
  | nil => simp [completeLines]
  | cons c rest ih =>
      rw [List.mem_cons, not_or] at h
      simp [completeLines, ih h.2, Ne.symm h.1]

/-- The complete lines stay what they are, whatever follows. -/
theorem completeLines_append (text more : List Char) :
    completeLines (text ++ more) =
      ((completeLines text).1 ++ (completeLines ((completeLines text).2 ++ more)).1,
        (completeLines ((completeLines text).2 ++ more)).2) := by
  induction text with
  | nil => rfl
  | cons c rest ih =>
      by_cases hc : c = '\n'
      · simp [completeLines, hc, ih]
      · rw [List.cons_append, completeLines, completeLines, ih]
        cases hlines : (completeLines rest).1 with
        | nil => simp [completeLines, hc, hlines]
        | cons line lines => simp [hc, hlines]

/-- What is read of some written lines is the first of them. -/
theorem completeLines_of_prefix (h : ∀ line ∈ lines, '\n' ∉ line)
    (hbegins : text <+: linesText lines) :
    (completeLines text).1 <+: lines := by
  induction lines generalizing text with
  | nil =>
      rw [List.prefix_nil.mp hbegins]
      exact List.nil_prefix
  | cons line lines ih =>
      have hline := h line List.mem_cons_self
      rw [linesText_cons] at hbegins
      rcases List.prefix_or_prefix_of_prefix hbegins (List.prefix_append line _) with hshort | hlong
      · have hnone : '\n' ∉ text := fun hmem => hline (hshort.subset hmem)
        rw [completeLines_of_notMem hnone]
        exact List.nil_prefix
      · obtain ⟨rest, rfl⟩ := hlong
        rw [List.prefix_append_right_inj] at hbegins
        cases rest with
        | nil =>
            rw [List.append_nil, completeLines_of_notMem hline]
            exact List.nil_prefix
        | cons c rest =>
            obtain ⟨rfl, hrest⟩ := List.cons_prefix_cons.mp hbegins
            rw [completeLines_cons_line hline]
            exact List.cons_prefix_cons.mpr
              ⟨rfl, ih (fun other hother => h other (List.mem_cons_of_mem _ hother)) hrest⟩

/-- The rest of a text behind its complete lines is the end of it. -/
theorem linesText_completeLines (text : List Char) :
    linesText (completeLines text).1 ++ (completeLines text).2 = text := by
  induction text with
  | nil => rfl
  | cons c rest ih =>
      by_cases hc : c = '\n'
      · simp [completeLines, hc, ih]
      · cases hlines : (completeLines rest).1 with
        | nil =>
            rw [hlines] at ih
            simpa [completeLines, hc, hlines] using ih
        | cons line lines =>
            rw [hlines] at ih
            simpa [completeLines, hc, hlines] using ih

end

/-! ## The channel -/

/-- `MAX_LINE_BYTES`. -/
def maxLineBytes : Nat := 131072

/-- The `length` of a text. -/
def unitLength (text : List Char) : Nat := (text.flatMap charUnits).length

theorem unitLength_append (first second : List Char) :
    unitLength (first ++ second) = unitLength first + unitLength second := by
  simp [unitLength]

theorem unitLength_le_byteLength (text : List Char) : unitLength text ≤ byteLength text := by
  induction text with
  | nil => exact Nat.le_refl _
  | cons c rest ih =>
      have hc : (charUnits c).length ≤ (utf8Bytes c).length := by
        simp only [charUnits, utf8Bytes]
        split <;> split <;> (try split) <;> simp
        omega
      have hunits : unitLength (c :: rest) = (charUnits c).length + unitLength rest := by
        simp [unitLength]
      rw [hunits, byteLength_cons]
      exact Nat.add_le_add hc ih

structure Channel where
  queue : List Json
  waiting : Bool
  buffer : List Char
  closed : Bool

namespace Channel

def invalidEvent : Json :=
  .obj [("event", .str "error"), ("code", .str "ENV_COMPUTER_OUTPUT_INVALID")]

def closedEvent : Json := .obj [("event", .str "closed")]

def timeoutEvent : Json := .obj [("event", .str "timeout")]

/-- The event of a line. -/
def eventOf (line : List Char) : Json := (parseJson (String.ofList line)).getD invalidEvent

/-- The channel after an event, and the event that its waiter gets. -/
def deliver (channel : Channel) (event : Json) : Channel × Option Json :=
  if channel.waiting then ({ channel with waiting := false }, some event)
  else ({ channel with queue := channel.queue ++ [event] }, none)

/-- Deliver events in turn; only the first one can find a waiter. -/
def deliverAll (channel : Channel) : List Json → Channel × Option Json
  | [] => (channel, none)
  | event :: rest =>
      let (later, got) := channel.deliver event
      let (last, more) := later.deliverAll rest
      (last, got.or more)

/-- `feed`. -/
def feed (channel : Channel) (text : List Char) : Channel × Option Json :=
  let buffer := channel.buffer ++ text
  if maxLineBytes < unitLength buffer then { channel with buffer := [] }.deliver invalidEvent
  else
    let (lines, tail) := completeLines buffer
    { channel with buffer := tail }.deliverAll (lines.map eventOf)

/-- `close`. -/
def close (channel : Channel) : Channel × Option Json :=
  if channel.waiting then { channel with closed := true }.deliver closedEvent
  else ({ channel with closed := true }, none)

/-- `next`, up to the wait: the event that is there already, or a waiter. -/
def next (channel : Channel) : Channel × Option Json :=
  match channel.queue with
  | event :: rest => ({ channel with queue := rest }, some event)
  | [] =>
      if channel.closed then (channel, some closedEvent)
      else ({ channel with waiting := true }, none)

/-- The timer of the waiter. -/
def expire (channel : Channel) : Channel × Option Json :=
  ({ channel with waiting := false }, some timeoutEvent)

theorem deliverAll_idle {channel : Channel} (h : channel.waiting = false) (events : List Json) :
    channel.deliverAll events = ({ channel with queue := channel.queue ++ events }, none) := by
  induction events generalizing channel with
  | nil => simp [deliverAll]
  | cons event rest ih => simp [deliverAll, deliver, h, ih]

theorem deliverAll_waiting {channel : Channel} (h : channel.waiting = true) (event : Json)
    (rest : List Json) : channel.deliverAll (event :: rest) =
      ({ channel with waiting := false, queue := channel.queue ++ rest }, some event) := by
  simp [deliverAll, deliver, h, deliverAll_idle]

end Channel

end Hseos.Computer
