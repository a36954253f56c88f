import Dialogue.Proofs.Dispatch
import Dialogue.Proofs.Nesting
import Dialogue.Proofs.Shorthand
import Dialogue.Proofs.Variables

/-!
# What the frame of an action shows

While an action runs, its raw fields stand in a frame of their own, and look-ups pass over
that frame as long as it is innermost.  So a field that is a plain text never sees its
siblings.  But functions open frames on top: `Map` for each item, a function of the
scenario for its arguments.  Under such a frame the fields of the action are variables like
any others.

* `action_frame_stays_unseen`: the frame makes no difference as long as no text is met that
  mentions a variable of the frame while the frame can be seen,
* `map_sees_action_frame`: a template of `Map` can see it.
-/

namespace Dialogue

/-! ## Scopes side by side -/

namespace Scope

/-- The same frames on top of different ones. -/
def Over (left right : List Frame) (s t : Scope) : Prop :=
  ∃ opened, s.frames = opened ++ left ∧ t.frames = opened ++ right

variable {left right : List Frame} {s t s' t' : Scope}

theorem Over.enter (h : Over left right s t) (frame : Frame) :
    Over left right (s.enter frame) (t.enter frame) := by
  obtain ⟨opened, hs, ht⟩ := h
  exact ⟨frame :: opened, congrArg (frame :: ·) hs, congrArg (frame :: ·) ht⟩

/-- Leaving the frames above a mark does not reach the frames below. -/
theorem Over.restore (h : Over left right s t) (h' : Over left right s' t') :
    Over left right (s'.restore s.depth) (t'.restore t.depth) := by
  obtain ⟨opened, hs, ht⟩ := h
  obtain ⟨opened', hs', ht'⟩ := h'
  have hleft : s'.depth - s.depth = opened'.length - opened.length := by
    rw [s'.depth_eq, s.depth_eq, hs, hs', List.length_append, List.length_append]
    omega
  have hright : t'.depth - t.depth = opened'.length - opened.length := by
    rw [t'.depth_eq, t.depth_eq, ht, ht', List.length_append, List.length_append]
    omega
  have hle : opened'.length - opened.length ≤ opened'.length := Nat.sub_le _ _
  refine ⟨opened'.drop (opened'.length - opened.length), ?_, ?_⟩
  · show s'.frames.drop (s'.depth - s.depth) = _
    rw [hleft, hs', List.drop_append_of_le_length hle]
  · show t'.frames.drop (t'.depth - t.depth) = _
    rw [hright, ht', List.drop_append_of_le_length hle]

end Scope

namespace Context

variable {σ : Type}

/-- Contexts that differ at most in frames below others. -/
structure Twins (left right : List Frame) (c d : Context σ) : Prop where
  scope : c.scope.Over left right d.scope
  rest : d = { c with scope := d.scope }

variable {left right : List Frame} {c d : Context σ}

theorem twinning_twins : Twinning (Twins left right : Context σ → Context σ → Prop) where
  enter frame h := ⟨h.scope.enter frame, by rw [h.rest]⟩
  leave h h' := ⟨h.scope.restore h'.scope, by rw [h'.rest]⟩
  params params h := ⟨h.scope, by rw [h.rest]⟩
  back h h' := ⟨h'.scope, by rw [h.rest, h'.rest]⟩

end Context

section

variable {σ α : Type} {left right : List Frame} {givesUp : Stop → Prop}

/-- The scope is neither read nor changed. -/
def Eval.IgnoresScope (x : Eval σ α) : Prop :=
  ∀ ctx scope, x.on { ctx with scope } = ((x.on ctx).1, { (x.on ctx).2 with scope })

theorem Eval.follows_of_ignoresScope {x : Eval σ α} (h : x.IgnoresScope) :
    x.Follows givesUp (Context.Twins left right) x := by
  intro c d hcd
  have hleft : (x.on c).2.scope = c.scope := congrArg (fun r => r.2.scope) (h c c.scope)
  have hright := h c d.scope
  rw [← hcd.rest] at hright
  rw [hright]
  exact .inr ⟨rfl, hleft ▸ hcd.scope, rfl⟩

theorem FunctionLibrary.readStorage_ignoresScope (self : Interpolation σ) (params : Fields) :
    (FunctionLibrary.readStorage.execute self params).IgnoresScope := by
  intro ctx scope
  simp only [FunctionLibrary.readStorage]
  cases Parameters.required "ReadStorage" params "key" <;> rfl

/-- The steps of functions follow each other from twins if the interpolations do. -/
theorem Interpolating.follows {first second : Interpolation σ}
    (hself : ∀ v, (first v).Follows givesUp (Context.Twins left right) (second v))
    (α : Type) (X : Interpolation σ → Eval σ α)
    (h : Interpolating none FunctionLibrary.readStorage α X) :
    (X first).Follows givesUp (Context.Twins left right) (X second) := by
  cases h with
  | value v _ => exact hself v
  | fail => exact .fail _
  | queue => exact Eval.follows_of_ignoresScope fun _ _ => rfl
  | read params => exact Eval.follows_of_ignoresScope (FunctionLibrary.readStorage_ignoresScope _ _)

end

/-! ## What a text mentions -/

/-- The local variable that a path may start with. -/
def Path.localName? : Path → Option String
  | [] => none
  | root :: rest =>
    match Place.ofSegment? root with
    | some .locals => rest.head?
    | some _ => none
    | none => some root

namespace Engine

variable {σ : Type} {e : Engine σ} {c d : Context σ}

/-- The words of a token that may name variables: its expression, or the arguments if it is
a call. -/
def tokenWords (e : Engine σ) (inner : List Char) : List String :=
  match Template.call? (Template.expression inner) with
  | none => [Template.expression inner]
  | some (name, args) =>
    match e.keywords? name with
    | none => []
    | some keywords =>
      (Shorthand.parts keywords (Shorthand.words args)).flatMap Shorthand.Part.arguments

/-- The local variables that a token mentions. -/
def tokenLocals (e : Engine σ) (inner : List Char) : List String :=
  (e.tokenWords inner).filterMap fun word => (Path.parse word).localName?

/-- The local variables that a value mentions by itself: those of its tokens if it is a text,
and none otherwise. -/
def mentioned (e : Engine σ) : Value → List String
  | .string text =>
    (Template.segments text.toList).flatMap fun segment => match segment with
      | .char _ => []
      | .token inner => e.tokenLocals inner
  | _ => []

theorem lookupIn_of_root? (hrest : d = { c with scope := d.scope }) {place : Place} {path : Path}
    (h : place = .locals → ∀ name ∈ path.head?, d.scope.root? name = c.scope.root? name) :
    e.lookupIn d place path = e.lookupIn c place path := by
  cases place with
  | locals =>
      cases path with
      | nil => rfl
      | cons name rest => simp only [lookupIn, Scope.find?, h rfl name rfl]
  | _ =>
      rw [hrest]
      rfl

/-- A look-up reads one local variable at most. -/
theorem lookup_of_root? (hrest : d = { c with scope := d.scope }) {word : String}
    (h : ∀ name ∈ (Path.parse word).localName?, d.scope.root? name = c.scope.root? name) :
    e.lookup d word = e.lookup c word := by
  unfold lookup
  cases hpath : Path.parse word with
  | nil => rfl
  | cons root rest =>
      rw [hpath] at h
      simp only [Path.localName?] at h
      simp only [lookupPath]
      split
      · rename_i place hplace
        rw [hplace] at h
        have hroot : e.placeRoot d place = e.placeRoot c place := by
          rw [hrest]
          cases place <;> rfl
        have hin : e.lookupIn d place rest = e.lookupIn c place rest := by
          refine lookupIn_of_root? hrest ?_
          rintro rfl
          exact h
        rw [hroot, hin]
      · rename_i hplace
        rw [hplace] at h
        have hin (place : Place) :
            e.lookupIn d place (root :: rest) = e.lookupIn c place (root :: rest) :=
          lookupIn_of_root? hrest fun _ => h
        simp only [hin]

/-- Reading a token depends on the local variables that it mentions, and on no others. -/
theorem tokenAt_of_root? (hrest : d = { c with scope := d.scope }) {inner : List Char}
    (h : ∀ name ∈ e.tokenLocals inner, d.scope.root? name = c.scope.root? name)
    (self : Interpolation σ) : e.tokenAt d self inner = e.tokenAt c self inner := by
  have hlookup (word : String) (hword : word ∈ e.tokenWords inner) :
      e.lookup d word = e.lookup c word := by
    refine lookup_of_root? hrest fun name hname => h name ?_
    exact List.mem_filterMap.2 ⟨word, hword, hname⟩
  unfold tokenWords at hlookup
  simp only [tokenAt]
  split
  · rename_i name args hcall
    simp only [hcall] at hlookup
    split
    · rfl
    · rename_i keywords hkeywords
      simp only [hkeywords] at hlookup
      have hdescriptor : e.descriptor d name keywords args = e.descriptor c name keywords args := by
        unfold descriptor
        rw [Shorthand.params_congr fun part hpart word hword => ?_]
        simp only [argument, hlookup word (List.mem_flatMap.2 ⟨part, hpart, hword⟩)]
      rw [hdescriptor]
  · rename_i hcall
    simp only [hcall] at hlookup
    rw [hlookup _ List.mem_cons_self]

theorem textBy_congr {first second : List Char → Eval σ (Option Value)} {text : String}
    (h : ∀ inner, .token inner ∈ Template.segments text.toList → first inner = second inner) :
    textBy first text = textBy second text := by
  have hpieces : (Template.segments text.toList).mapM (segmentBy first) =
      (Template.segments text.toList).mapM (segmentBy second) := by
    refine Eval.mapM_congr fun segment hsegment => ?_
    cases segment with
    | char c => rfl
    | token inner => simp only [segmentBy, h inner hsegment]
  simp only [textBy]
  split
  · rename_i inner hsegments
    have hinner : .token inner ∈ Template.segments text.toList := by
      rw [hsegments]
      exact List.mem_cons_self
    rw [h inner hinner]
  · rw [hpieces]

/-! ## Interpolation from twins -/

section

variable {left right : List Frame} {givesUp : Stop → Prop}

/-- Both contexts have the same values for the local variables that a value mentions. -/
def ReadsAlike (e : Engine σ) (c d : Context σ) (v : Value) : Prop :=
  ∀ name ∈ e.mentioned v, d.scope.root? name = c.scope.root? name

/-- If the parts follow each other from twins, so does a value that reads alike. -/
theorem interpolateWith_follows (builtIn : e.BuiltIn)
    (hgives : ∀ failure, ¬ givesUp (.failed failure)) {first second : Interpolation σ}
    (hfirst : ∀ v, (first v).Keeps Context.Advances)
    (hsecond : ∀ v, (second v).Keeps Context.Advances)
    (hself : ∀ v, (first v).Follows givesUp (Context.Twins left right) (second v))
    {v : Value} (halike : e.ReadsAlike c d v) (h : Context.Twins left right c d) :
    (∃ stop, ((e.interpolateWith first v).on c).1 = .error stop ∧ givesUp stop) ∨
      ((e.interpolateWith first v).on c).1 = ((e.interpolateWith second v).on d).1 ∧
      Context.Twins left right ((e.interpolateWith first v).on c).2
        ((e.interpolateWith second v).on d).2 := by
  by_cases htext : ∃ text, v = .string text
  · obtain ⟨text, rfl⟩ := htext
    have htoken (inner : List Char) (hinner : .token inner ∈ Template.segments text.toList) :
        e.tokenAt d second inner = e.tokenAt c second inner := by
      refine tokenAt_of_root? h.rest (fun name hname => halike name ?_) _
      exact List.mem_flatMap.2 ⟨.token inner, hinner, hname⟩
    have hassembled : Assembled (Interpolating none FunctionLibrary.readStorage)
        fun interpolate => textBy (e.tokenAt c interpolate) text :=
      textBy_assembled text fun inner _ => tokenAt_assembled builtIn.equipped c inner (.inl rfl)
        (Value.within_none _) fun _ _ _ _ _ _ _ => Value.within_none _
    -- interpolation on the way changes no variable, so the tokens can be read at the start
    simp only [interpolateWith]
    rw [on_textWith builtIn.equipped hfirst, on_textWith builtIn.equipped hsecond,
      textBy_congr htoken]
    exact hassembled.follows Context.twinning_twins hgives (Interpolating.follows hself) c d h
  · have hassembled := interpolateWith_assembled_of_parts builtIn.equipped v (.inl rfl)
      (fun _ hnone => by cases hnone) fun text hv => htext ⟨text, hv⟩
    exact hassembled.follows Context.twinning_twins hgives (Interpolating.follows hself) c d h

/-- Interpolation that gives up at requests that are not good. -/
def interpolateWhile (e : Engine σ) (good : Request σ → Bool) : Nat → Interpolation σ
  | 0, _ => Eval.exhausted
  | bound + 1, v =>
    Eval.make fun ctx =>
      if good (ctx, v) then (e.interpolateWith (e.interpolateWhile good bound) v).on ctx
      else (.error .exhausted, ctx)

/-- All requests that are met on the way are good, and the bound is large enough. -/
def MeetsOnly (e : Engine σ) (good : Request σ → Bool) (bound : Nat) (request : Request σ) :
    Prop :=
  ((e.interpolateWhile good bound request.2).on request.1).1 ≠ .error .exhausted

variable {good : Request σ → Bool}

theorem interpolateWhile_advances (builtIn : e.BuiltIn) (bound : Nat) (v : Value) :
    (e.interpolateWhile good bound v).Keeps Context.Advances := by
  induction bound generalizing v with
  | zero => exact Context.Advances.refl
  | succ bound ih =>
      intro ctx
      simp only [interpolateWhile, Eval.on_make]
      split
      · exact (interpolateWith_assembled builtIn.equipped v).keeps Context.framing_advances _
          (Asking.advances ih) ctx
      · exact .refl ctx

theorem interpolateWhile_below (builtIn : e.BuiltIn) (bound : Nat) (v : Value) :
    (e.interpolateWhile good bound v).Below (e.interpolate bound v) := by
  induction bound generalizing v with
  | zero => exact .refl _
  | succ bound ih =>
      intro ctx
      simp only [interpolateWhile, Eval.on_make]
      split
      · exact interpolateWith_below builtIn ih v ctx
      · exact .inl rfl

/-- As long as what is met reads alike, interpolation does the same from twins. -/
theorem interpolateWhile_follows (builtIn : e.BuiltIn)
    (hgood : ∀ {c d v}, Context.Twins left right c d → good (c, v) → e.ReadsAlike c d v)
    (bound : Nat) (v : Value) :
    (e.interpolateWhile good bound v).Follows (· = .exhausted) (Context.Twins left right)
      (e.interpolate bound v) := by
  induction bound generalizing v with
  | zero => exact fun _ _ _ => .inl ⟨_, rfl, rfl⟩
  | succ bound ih =>
      intro c d h
      simp only [interpolateWhile, Eval.on_make]
      split
      · rename_i hv
        exact interpolateWith_follows builtIn (fun _ => Stop.noConfusion)
          (interpolateWhile_advances builtIn bound) (interpolate_advances builtIn bound) ih
          (hgood h hv) h
      · exact .inl ⟨_, rfl, rfl⟩

/-- Where everything reads alike, interpolation does the same from twins. -/
theorem interpolate_follows (builtIn : e.BuiltIn)
    (halike : ∀ {c d} v, Context.Twins left right c d → e.ReadsAlike c d v)
    (bound : Nat) (v : Value) :
    (e.interpolate bound v).Follows (fun _ => False) (Context.Twins left right)
      (e.interpolate bound v) := by
  induction bound generalizing v with
  | zero => exact fun c d h => .inr ⟨rfl, h⟩
  | succ bound ih =>
      exact fun c d h => interpolateWith_follows builtIn (fun _ h => h)
        (interpolate_advances builtIn bound) (interpolate_advances builtIn bound) ih
        (halike v h) h

end

end Engine

/-! ## The frame of an action -/

/-- The frame of an action with these fields. -/
def Frame.ofAction (fields : Fields) : Frame := { bindings := fields, isAction := true }

namespace Scope

variable {s t : Scope} {base : List Frame}

/-- Only the innermost frame can be passed over. -/
theorem visible_of_cons {frame : Frame} {opened : List Frame}
    (h : s.frames = (frame :: opened) ++ base) :
    s.visible = (if frame.isAction then opened else frame :: opened) ++ base := by
  rw [visible, h, List.cons_append]
  by_cases haction : frame.isAction
  · simp [haction]
  · simp [haction]

theorem visible_of_action {fields : Fields} (h : s.frames = Frame.ofAction fields :: base) :
    s.visible = base := by
  rw [visible, h]
  rfl

theorem visible_of_plain (h : s.frames = base)
    (hplain : ∀ frame ∈ base.head?, frame.isAction = false) : s.visible = base := by
  rw [visible, h]
  cases base with
  | nil => rfl
  | cons frame rest => simp [hplain frame rfl]

/-- A look-up depends on what the visible frames bind. -/
theorem root?_of_bindings (h : s.visible.map Frame.bindings = t.visible.map Frame.bindings)
    (name : String) : s.root? name = t.root? name := by
  have hbindings (u : Scope) :
      u.root? name = (u.visible.map Frame.bindings).findSome? (Keyed.get? · name) := by
    rw [List.findSome?_map]
    rfl
  rw [hbindings, hbindings, h]

end Scope

namespace Engine

variable {σ : Type} {e : Engine σ} {ctx c d : Context σ}

/-- Whether a request leaves the frame of an action unread that lies above so many others:
either the frame cannot be seen, or nothing is mentioned that it binds and that no frame
above it binds, too. -/
def leavesUnread (e : Engine σ) (fields : Fields) (floor : Nat) (request : Request σ) : Bool :=
  let frames := request.1.scope.visible
  decide (frames.length ≤ floor) || (e.mentioned request.2).all fun name =>
    (fields.get? name).isNone ||
      (frames.take (frames.length - (floor + 1))).any fun frame =>
        (frame.bindings.get? name).isSome

/-- What leaves the frame unread reads alike with an empty one. -/
theorem readsAlike_of_leavesUnread {fields : Fields} {base : List Frame} {v : Value}
    (h : Context.Twins (Frame.ofAction fields :: base) (Frame.ofAction [] :: base) c d)
    (hunread : e.leavesUnread fields base.length (c, v)) : e.ReadsAlike c d v := by
  intro name hname
  obtain ⟨opened, hc, hd⟩ := h.scope
  cases opened with
  | nil => rw [Scope.root?, Scope.root?, Scope.visible_of_action hc, Scope.visible_of_action hd]
  | cons frame opened =>
      -- below an opened frame the frame of the action can be seen
      have hvisible := Scope.visible_of_cons hc
      have hvisible' := Scope.visible_of_cons hd
      generalize (if frame.isAction then opened else frame :: opened) = above
        at hvisible hvisible'
      have hlength : (above ++ Frame.ofAction fields :: base).length =
          above.length + (base.length + 1) := by
        rw [List.length_append, List.length_cons]
      have hseen : ¬ above.length + (base.length + 1) ≤ base.length := by omega
      simp only [leavesUnread, hvisible, hlength, hseen, decide_false, Bool.false_or,
        List.all_eq_true, Nat.add_sub_cancel, List.take_left, Bool.or_eq_true,
        Option.isNone_iff_eq_none, List.any_eq_true] at hunread
      rw [Scope.root?, Scope.root?, hvisible, hvisible', List.findSome?_append,
        List.findSome?_append]
      rcases hunread name hname with hunbound | ⟨binder, hbinder, hbound⟩
      · -- neither frame binds the name
        have hempty : (Frame.ofAction []).bindings.get? name = none := rfl
        have hfields : (Frame.ofAction fields).bindings.get? name = none := hunbound
        rw [List.findSome?_cons, List.findSome?_cons, hempty, hfields]
      · -- the look-up ends above
        have hsome : (above.findSome? fun frame => frame.bindings.get? name).isSome :=
          List.findSome?_isSome_iff.2 ⟨binder, hbinder, hbound⟩
        rw [Option.or_of_isSome hsome, Option.or_of_isSome hsome]

/-- An empty frame of an action is as good as none, unless it uncovers another one. -/
theorem readsAlike_empty {base : List Frame}
    (hplain : ∀ frame ∈ base.head?, frame.isAction = false)
    (h : Context.Twins (Frame.ofAction [] :: base) base c d) (v : Value) :
    e.ReadsAlike c d v := by
  intro name _
  obtain ⟨opened, hc, hd⟩ := h.scope
  cases opened with
  | nil =>
      rw [Scope.root?, Scope.root?, Scope.visible_of_action hc, Scope.visible_of_plain hd hplain,
        List.nil_append]
  | cons frame opened =>
      rw [Scope.root?, Scope.root?, Scope.visible_of_cons hc, Scope.visible_of_cons hd,
        List.findSome?_append, List.findSome?_append]
      rfl

/-- Below a plain frame it makes no difference whether a frame is that of an action. -/
theorem readsAlike_below {fields locals : Fields} {base : List Frame}
    (h : Context.Twins ({ bindings := locals } :: Frame.ofAction fields :: base)
      ({ bindings := locals } :: { bindings := fields } :: base) c d) (v : Value) :
    e.ReadsAlike c d v := by
  intro name _
  obtain ⟨opened, hc, hd⟩ := h.scope
  refine Scope.root?_of_bindings ?_ name
  cases opened with
  | nil => rw [Scope.visible, Scope.visible, hc, hd]; rfl
  | cons frame opened =>
      rw [Scope.visible_of_cons hc, Scope.visible_of_cons hd, List.map_append, List.map_append]
      rfl

/-- Interpolation inside a frame leaves the scope as it was outside. -/
theorem on_inScope_interpolate (builtIn : e.BuiltIn) (frame : Frame) (bound : Nat) (v : Value) :
    (Eval.inScope (fun scope => scope.enter frame) (e.interpolate bound v)).on ctx =
      (((e.interpolate bound v).on { ctx with scope := ctx.scope.enter frame }).1,
        { ((e.interpolate bound v).on { ctx with scope := ctx.scope.enter frame }).2 with
          scope := ctx.scope }) := by
  have hscope := (interpolate_restored builtIn bound v
    { ctx with scope := ctx.scope.enter frame }).scope
  simp only [Eval.inScope, Eval.on_within, hscope, Scope.restore_enter]

/-- Where interpolation does the same from twins, it does the same inside their frames. -/
theorem on_inScope_of_twins (builtIn : e.BuiltIn) {bound : Nat} {v : Value} {frame other : Frame}
    {left right : List Frame}
    (houtcome : ((e.interpolate bound v).on { ctx with scope := ctx.scope.enter frame }).1 =
      ((e.interpolate bound v).on { ctx with scope := ctx.scope.enter other }).1)
    (htwins : Context.Twins left right
      ((e.interpolate bound v).on { ctx with scope := ctx.scope.enter frame }).2
      ((e.interpolate bound v).on { ctx with scope := ctx.scope.enter other }).2) :
    (Eval.inScope (fun scope => scope.enter frame) (e.interpolate bound v)).on ctx =
      (Eval.inScope (fun scope => scope.enter other) (e.interpolate bound v)).on ctx := by
  rw [on_inScope_interpolate builtIn, on_inScope_interpolate builtIn, houtcome, htwins.rest]

theorem withAction_eq_empty (builtIn : e.BuiltIn) {bound : Nat} {v : Value} {fields : Fields}
    (h : e.MeetsOnly (e.leavesUnread fields ctx.scope.depth) bound
      ({ ctx with scope := ctx.scope.pushAction fields }, v)) :
    (Eval.withAction fields (e.interpolate bound v)).on ctx =
      (Eval.withAction [] (e.interpolate bound v)).on ctx := by
  have hgood {c d : Context σ} {w : Value}
      (htwins : Context.Twins (Frame.ofAction fields :: ctx.scope.frames)
        (Frame.ofAction [] :: ctx.scope.frames) c d)
      (hunread : e.leavesUnread fields ctx.scope.depth (c, w)) : e.ReadsAlike c d w :=
    readsAlike_of_leavesUnread htwins (ctx.scope.depth_eq ▸ hunread)
  have hfollows := interpolateWhile_follows builtIn hgood bound v
    { ctx with scope := ctx.scope.pushAction fields } { ctx with scope := ctx.scope.pushAction [] }
    ⟨⟨[], rfl, rfl⟩, rfl⟩
  rw [← (interpolateWhile_below builtIn bound v).on_eq h] at hfollows
  rcases hfollows with ⟨_, hstop, rfl⟩ | ⟨houtcome, htwins⟩
  · have hexhausted := (interpolateWhile_below builtIn bound v).on_eq h
    rw [hexhausted] at hstop
    exact absurd hstop h
  · exact on_inScope_of_twins builtIn houtcome htwins

theorem withAction_empty (builtIn : e.BuiltIn) (bound : Nat) (v : Value)
    (hplain : ∀ frame ∈ ctx.scope.frames.head?, frame.isAction = false) :
    (Eval.withAction [] (e.interpolate bound v)).on ctx = (e.interpolate bound v).on ctx := by
  have hfollows := interpolate_follows builtIn (fun w htwins => readsAlike_empty hplain htwins w)
    bound v { ctx with scope := ctx.scope.pushAction [] } ctx ⟨⟨[], rfl, rfl⟩, rfl⟩
  rcases hfollows with ⟨_, -, hnever⟩ | ⟨houtcome, htwins⟩
  · exact hnever.elim
  · have hscope := (interpolate_restored builtIn bound v ctx).scope
    have hrest := htwins.rest
    rw [hscope] at hrest
    refine (on_inScope_interpolate builtIn (Frame.ofAction []) bound v).trans ?_
    exact Prod.ext houtcome hrest.symm

theorem withAction_below_locals (builtIn : e.BuiltIn) (bound : Nat) (v : Value)
    (fields locals : Fields) :
    (Eval.withAction fields (Eval.withLocals locals (e.interpolate bound v))).on ctx =
      (Eval.withLocals fields (Eval.withLocals locals (e.interpolate bound v))).on ctx := by
  let c : Context σ := { ctx with scope := (ctx.scope.pushAction fields).push locals }
  let d : Context σ := { ctx with scope := (ctx.scope.push fields).push locals }
  have hinner (scope : Scope) : (Eval.withLocals locals (e.interpolate bound v)).on
      { ctx with scope } =
        (((e.interpolate bound v).on { ctx with scope := scope.push locals }).1,
          { ((e.interpolate bound v).on { ctx with scope := scope.push locals }).2 with scope }) :=
    on_inScope_interpolate builtIn _ bound v
  have hleft : (Eval.withAction fields (Eval.withLocals locals (e.interpolate bound v))).on ctx =
      (((e.interpolate bound v).on c).1,
        { ((e.interpolate bound v).on c).2 with scope := ctx.scope }) := by
    rw [Eval.on_withAction]
    simp only [hinner, Scope.restore_pushAction, c]
  have hright : (Eval.withLocals fields (Eval.withLocals locals (e.interpolate bound v))).on ctx =
      (((e.interpolate bound v).on d).1,
        { ((e.interpolate bound v).on d).2 with scope := ctx.scope }) := by
    rw [Eval.on_withLocals]
    simp only [hinner, Scope.restore_push, d]
  have hfollows := interpolate_follows builtIn (fun w htwins => readsAlike_below htwins w) bound v
    c d ⟨⟨[], rfl, rfl⟩, rfl⟩
  rcases hfollows with ⟨_, -, hnever⟩ | ⟨houtcome, htwins⟩
  · exact hnever.elim
  · rw [hleft, hright, houtcome, htwins.rest]

/-- Interpolating a value inside the frame of an action comes to the same, whatever the
fields of the action are, and to the same as without the frame if that does not uncover
the frame of another action.  The condition is that the values that are met on the way
leave the frame unread: while it can be seen, they mention nothing that it binds.  It can
be seen below any frame that is opened on top of it, and is then like any other frame. -/
theorem action_frame_stays_unseen (builtIn : e.BuiltIn) (bound : Nat) (v : Value)
    (fields : Fields) (ctx : Context σ) :
    (e.MeetsOnly (e.leavesUnread fields ctx.scope.depth) bound
        ({ ctx with scope := ctx.scope.pushAction fields }, v) →
      (Eval.withAction fields (e.interpolate bound v)).on ctx =
        (Eval.withAction [] (e.interpolate bound v)).on ctx ∧
      ((∀ frame ∈ ctx.scope.frames.head?, frame.isAction = false) →
        (Eval.withAction fields (e.interpolate bound v)).on ctx =
          (e.interpolate bound v).on ctx)) ∧
    ∀ locals, (Eval.withAction fields (Eval.withLocals locals (e.interpolate bound v))).on ctx =
      (Eval.withLocals fields (Eval.withLocals locals (e.interpolate bound v))).on ctx := by
  refine ⟨fun hmeets => ⟨withAction_eq_empty builtIn hmeets, fun hplain => ?_⟩,
    withAction_below_locals builtIn bound v fields⟩
  exact (withAction_eq_empty builtIn hmeets).trans (withAction_empty builtIn bound v hplain)

/-- The text of a message: a template for each item of a list. -/
def mapping (template : String) : Value :=
  .object [("array", .array [.bool true]), ("function", .string "Map"),
    ("template", .string template)]

/-- The fields of a message with that text and a parse mode. -/
def mappingFields (template : String) : Fields :=
  [("parseMode", .string "html"), ("text", mapping template)]

/-- A template that mentions the item and a variable around the action, but no field of
it. -/
theorem map_leaves_frame_unread :
    let ctx := Context.solitary [("name", .string "Ann")]
    let template := "\x7b\x7bname\x7d\x7d: \x7b\x7bit\x7d\x7d"
    let fields := mappingFields template
    (solitary {}).BuiltIn ∧
      (solitary {}).MeetsOnly ((solitary {}).leavesUnread fields ctx.scope.depth) 4
        ({ ctx with scope := ctx.scope.pushAction fields }, mapping template) ∧
      (∀ frame ∈ ctx.scope.frames.head?, frame.isAction = false) ∧
      (Eval.withAction fields ((solitary {}).interpolate 4 (mapping template))).on ctx =
        ((solitary {}).interpolate 4 (mapping template)).on ctx := by
  intro ctx template fields
  have hmeets : (((solitary {}).interpolateWhile
      ((solitary {}).leavesUnread (mappingFields "\x7b\x7bname\x7d\x7d: \x7b\x7bit\x7d\x7d") 0)
        4 (mapping "\x7b\x7bname\x7d\x7d: \x7b\x7bit\x7d\x7d")).on
      { Context.solitary [("name", .string "Ann")] with
        scope := Scope.empty.pushAction
          (mappingFields "\x7b\x7bname\x7d\x7d: \x7b\x7bit\x7d\x7d") }).1 =
            .ok (.array [.string "Ann: true"]) := by
    cbv
  have hunread : (solitary {}).MeetsOnly ((solitary {}).leavesUnread fields ctx.scope.depth) 4
      ({ ctx with scope := ctx.scope.pushAction fields }, mapping template) := by
    intro hexhausted
    have hboth := hexhausted.symm.trans hmeets
    cases hboth
  have hplain : ∀ frame ∈ ctx.scope.frames.head?, frame.isAction = false := by
    intro frame hframe
    cases hframe
  obtain ⟨hsame, -⟩ :=
    action_frame_stays_unseen (solitary_builtIn {}) 4 (mapping template) fields ctx
  exact ⟨solitary_builtIn {}, hunread, hplain, (hsame hunread).2 hplain⟩

/-- A template of `Map` can see the fields of the action in which it stands. -/
theorem map_sees_action_frame :
    let ctx := Context.solitary []
    let template := "\x7b\x7bparseMode\x7d\x7d"
    (solitary {}).BuiltIn ∧ ctx.scope.frames = [] ∧
      (Eval.withAction (mappingFields template)
        ((solitary {}).interpolate 4 (mapping template))).on ctx ≠
          ((solitary {}).interpolate 4 (mapping template)).on ctx := by
  have hwith : ((Eval.withAction (mappingFields "\x7b\x7bparseMode\x7d\x7d")
      ((solitary {}).interpolate 4 (mapping "\x7b\x7bparseMode\x7d\x7d"))).on
        (Context.solitary [])).1 = .ok (.array [.string "html"]) := by
    cbv
  have hwithout : (((solitary {}).interpolate 4 (mapping "\x7b\x7bparseMode\x7d\x7d")).on
      (Context.solitary [])).1 =
        .ok (.array [.string "\x7b\x7bparseMode\x7d\x7d"]) := by
    cbv
  refine ⟨solitary_builtIn {}, rfl, fun hsame => ?_⟩
  rw [hsame, hwithout] at hwith
  have hitems := Value.array.inj (Except.ok.inj hwith)
  exact absurd (Value.string.inj (List.head_eq_of_cons_eq hitems)) (by decide)

end Engine

end Dialogue
