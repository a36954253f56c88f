import Dialogue.Value.Path

/-!
# Scopes

Local variables live in a stack of frames.  A frame is either plain, or holds the raw
fields of the action that is running.  While an action frame is innermost, look-ups pass
over it, so the fields of an action are read against the bindings around it and not
against their own templates; frames pushed on top of it see it as usual.
-/

namespace Dialogue

/-- One frame of variables. -/
structure Frame where
  bindings : Fields
  isAction : Bool := false

/-- Frames, innermost first, and their number. -/
structure Scope where
  frames : List Frame := []
  depth : Nat := frames.length
  depth_eq : depth = frames.length := by rfl

namespace Scope

/-- The scope without frames. -/
def empty : Scope := {}

/-- Whether there is no frame. -/
def isEmpty (s : Scope) : Bool := s.frames.isEmpty

/-- Enters a frame. -/
def enter (s : Scope) (frame : Frame) : Scope where
  frames := frame :: s.frames
  depth := s.depth + 1
  depth_eq := by simp [s.depth_eq]

/-- Enters a plain frame. -/
def push (s : Scope) (bindings : Fields) : Scope := s.enter { bindings }

/-- Enters the frame of an action. -/
def pushAction (s : Scope) (fields : Fields) : Scope :=
  s.enter { bindings := fields, isAction := true }

/-- Leaves a number of frames. -/
def leave (s : Scope) (count : Nat) : Scope where
  frames := s.frames.drop count
  depth := s.depth - count
  depth_eq := by simp [s.depth_eq]

/-- Leaves the innermost frame. -/
def pop (s : Scope) : Scope := s.leave 1

/-- Leaves every frame above a depth. -/
def restore (s : Scope) (mark : Nat) : Scope := s.leave (s.depth - mark)

/-- Binds a variable in the innermost frame; an empty scope gets a plain frame first. -/
def set (s : Scope) (name : String) (value : Value) : Scope :=
  match h : s.frames with
  | [] => { frames := [{ bindings := Keyed.put name value [] }] }
  | frame :: rest =>
    { frames := { frame with bindings := frame.bindings.put name value } :: rest
      depth := s.depth
      depth_eq := by simp [s.depth_eq, h] }

/-- The frames that a look-up searches. -/
def visible (s : Scope) : List Frame :=
  match s.frames with
  | frame :: rest => if frame.isAction then rest else frame :: rest
  | [] => []

/-- The value of a variable in the innermost visible frame that binds it. -/
def root? (s : Scope) (name : String) : Option Value :=
  s.visible.findSome? fun frame => frame.bindings.get? name

/-- The value at a path: the first segment is a variable, the others descend into what
its frame holds. -/
def find? (s : Scope) : Path → Option Value
  | [] => none
  | name :: rest => (s.root? name).bind fun v => v.at? rest

/-- Scopes with the same frames are the same. -/
theorem eq_of_frames_eq {s t : Scope} (h : s.frames = t.frames) : s = t := by
  obtain ⟨frames, depth, depth_eq⟩ := s
  obtain ⟨frames', depth', depth_eq'⟩ := t
  subst depth_eq depth_eq'
  cases h
  rfl

@[simp] theorem leave_zero (s : Scope) : s.leave 0 = s :=
  eq_of_frames_eq rfl

@[simp] theorem leave_enter (s : Scope) (frame : Frame) : (s.enter frame).leave 1 = s :=
  eq_of_frames_eq rfl

@[simp] theorem restore_enter (s : Scope) (frame : Frame) :
    (s.enter frame).restore s.depth = s := by
  have one : (s.enter frame).depth - s.depth = 1 := Nat.add_sub_cancel_left s.depth 1
  rw [restore, one, leave_enter]

@[simp] theorem restore_push (s : Scope) (bindings : Fields) :
    (s.push bindings).restore s.depth = s :=
  restore_enter s _

@[simp] theorem restore_pushAction (s : Scope) (fields : Fields) :
    (s.pushAction fields).restore s.depth = s :=
  restore_enter s _

@[simp] theorem restore_depth (s : Scope) : s.restore s.depth = s := by
  simp [restore]

end Scope
end Dialogue
