import SchemaLint.Proofs.Parser
import SchemaLint.Sql.Reader

/-!
# Readers that count positions

A reader of statements is given a list of tokens and leaves a suffix of it, so it cannot leave its
input.  A stepper reads the same tokens by a position, which it moves by hand: forward by one or
several tokens, back by one, or to the end.  A step that would be wrong is a slip, which ends the
run: one that leaves the range, a text between positions in the wrong order, a depth below zero, a
turn of a loop that stays where it is and is followed by another.

* `Slip` - what a stepper must not do.
* `Stepper.loop` - turns that go on have to leave the position further ahead.
* `Stepper.Tracks` - from a position on, a stepper reads what a reader reads and ends where the
  reader leaves the rest.  So it does not slip.
-/

namespace SchemaLint
namespace Sql

/-- What must not happen to a position. -/
inductive Slip where
  /-- It is moved past the end of the tokens. -/
  | pastEnd
  /-- It is moved back, or one before it is asked for, at the first token. -/
  | beforeStart
  /-- The text between two positions is asked for, of which the second is before the first, or the
  first is past the end. -/
  | reversedText
  /-- A depth of parentheses is lowered that is zero. -/
  | negativeDepth
  /-- A turn of a loop has not moved it forward, and another turn follows. -/
  | idleTurn
deriving DecidableEq, Repr

/-- Why a stepper ends before it has read all it reads. -/
inductive Halt where
  | mismatch (mismatch : Mismatch)
  | slip (slip : Slip)
deriving DecidableEq, Repr

/-- A program that reads tokens by a position, and does not leave it out of range. -/
structure Stepper (α : Type) where
  run : List Token → Nat → Except Halt (α × Nat)
  inRange : ∀ {tokens : List Token} {pos : Nat} {value : α} {after : Nat},
    run tokens pos = .ok (value, after) → pos ≤ tokens.length → after ≤ tokens.length

/-- How a turn of a loop ends: another one follows, or it was the last. -/
inductive Turn (σ ρ : Type) where
  | again (state : σ)
  | leave (result : ρ)

/-- What is read after a turn that may be the last. -/
def Turn.goOn {σ ρ : Type} (p : σ → Reader ρ) : Turn σ ρ → Reader ρ
  | .again state => p state
  | .leave result => pure result

namespace Stepper

variable {α β κ σ ρ : Type}

/-- Reads nothing. -/
protected def pure (value : α) : Stepper α where
  run _ pos := .ok (value, pos)
  inRange h hpos := by
    cases h
    exact hpos

/-- Goes on with another stepper from the position that one has reached. -/
protected def bind (c : Stepper α) (f : α → Stepper β) : Stepper β where
  run tokens pos :=
    match c.run tokens pos with
    | .error halt => .error halt
    | .ok (value, pos) => (f value).run tokens pos
  inRange h hpos := by
    split at h
    · cases h
    · next hc => exact (f _).inRange h (c.inRange hc hpos)

instance : Monad Stepper where
  pure := Stepper.pure
  bind := Stepper.bind

/-- The position. -/
def position : Stepper Nat where
  run _ pos := .ok (pos, pos)
  inRange h hpos := by
    cases h
    exact hpos

/-- The token some places ahead. -/
def lookAt (distance : Nat) : Stepper (Option Token) where
  run tokens pos := .ok (tokens[pos + distance]?, pos)
  inRange h hpos := by
    cases h
    exact hpos

/-- The token at the position. -/
def look : Stepper (Option Token) :=
  lookAt 0

/-- Whether the position is at the end. -/
def atEnd : Stepper Bool where
  run tokens pos := .ok (decide (tokens.length ≤ pos), pos)
  inRange h hpos := by
    cases h
    exact hpos

/-- Stops because of a slip. -/
def slip (slip : Slip) : Stepper α where
  run _ _ := .error (.slip slip)
  inRange h := by cases h

/-- Stops because something else is expected at the position. -/
def fail (expected : String) : Stepper α where
  run tokens pos := .error (.mismatch ⟨expected, tokens[pos]?⟩)
  inRange h := by cases h

/-- Moves forward by some tokens. -/
def advanceBy (count : Nat) : Stepper Unit where
  run tokens pos :=
    if pos + count ≤ tokens.length then .ok ((), pos + count) else .error (.slip .pastEnd)
  inRange h _ := by
    split at h
    · next hafter =>
        cases h
        exact hafter
    · cases h

/-- Moves forward by one token. -/
def advance : Stepper Unit :=
  advanceBy 1

/-- The position before this one. -/
def positionBefore : Stepper Nat where
  run _ pos := if pos = 0 then .error (.slip .beforeStart) else .ok (pos - 1, pos)
  inRange h hpos := by
    split at h
    · cases h
    · cases h
      exact hpos

/-- Moves back by one token. -/
def stepBack : Stepper Unit where
  run _ pos := if pos = 0 then .error (.slip .beforeStart) else .ok ((), pos - 1)
  inRange h hpos := by
    split at h
    · cases h
    · cases h
      exact Nat.le_trans (Nat.sub_le _ _) hpos

/-- Moves to the end. -/
def toEnd : Stepper Unit where
  run tokens _ := .ok ((), tokens.length)
  inRange h _ := by
    cases h
    exact Nat.le_refl _

/-- The token at the position, which is passed if there is one. -/
def take : Stepper (Option Token) := do
  match ← look with
  | some token =>
      advance
      return some token
  | none => return none

/-- Passes this token if it is at the position, and says whether it is. -/
def consume (token : Token) : Stepper Bool := do
  if (← look) = some token then
    advance
    return true
  else
    return false

/-- The text of the tokens between two positions. -/
def textBetween (start stop : Nat) : Stepper String where
  run tokens pos :=
    if start ≤ min stop tokens.length then
      .ok (Token.displayAll ((tokens.take stop).drop start), pos)
    else
      .error (.slip .reversedText)
  inRange h hpos := by
    split at h
    · cases h
      exact hpos
    · cases h

/-- A depth of parentheses that is lower by one. -/
def lowered (depth : Nat) : Stepper Nat :=
  if depth = 0 then slip .negativeDepth else pure (depth - 1)

/-- Runs turns until one of them is the last. -/
def loopFrom (turn : σ → Stepper (Turn σ ρ)) (tokens : List Token) (state : σ) (pos : Nat) :
    Except Halt (ρ × Nat) :=
  match (turn state).run tokens pos with
  | .error halt => .error halt
  | .ok (.leave result, after) => .ok (result, after)
  | .ok (.again state, after) =>
      if after ≤ pos then .error (.slip .idleTurn)
      -- a turn that began in range has not left it, but the recursion may begin anywhere
      else if tokens.length < after then .error (.slip .pastEnd)
      else loopFrom turn tokens state after
termination_by tokens.length - pos

theorem loopFrom_inRange {turn : σ → Stepper (Turn σ ρ)} {tokens : List Token} {state : σ}
    {result : ρ} {pos after : Nat} (h : loopFrom turn tokens state pos = .ok (result, after))
    (hpos : pos ≤ tokens.length) : after ≤ tokens.length := by
  fun_induction loopFrom turn tokens state pos with
  | case1 => cases h
  | case2 _ _ _ _ hturn =>
      cases h
      exact (turn _).inRange hturn hpos
  | case3 => cases h
  | case4 => cases h
  | case5 _ _ _ _ hturn _ _ ih => exact ih h ((turn _).inRange hturn hpos)

/-- A loop, from a state. -/
def loop (turn : σ → Stepper (Turn σ ρ)) (state : σ) : Stepper ρ where
  run tokens pos := loopFrom turn tokens state pos
  inRange := loopFrom_inRange

/-! ### Runs -/

section Run

variable {tokens : List Token} {pos after : Nat}

theorem run_bind {c : Stepper α} {value : α} (h : c.run tokens pos = .ok (value, after))
    (f : α → Stepper β) : (c >>= f).run tokens pos = (f value).run tokens after := by
  change (Stepper.bind c f).run tokens pos = _
  simp only [Stepper.bind, h]

theorem run_bind_of_error {c : Stepper α} {halt : Halt} (h : c.run tokens pos = .error halt)
    (f : α → Stepper β) : (c >>= f).run tokens pos = .error halt := by
  change (Stepper.bind c f).run tokens pos = _
  simp only [Stepper.bind, h]

theorem run_position : position.run tokens pos = .ok (pos, pos) := rfl

theorem run_advanceBy {count : Nat} (h : pos + count ≤ tokens.length) :
    (advanceBy count).run tokens pos = .ok ((), pos + count) :=
  if_pos h

example : advance.run [.comma] 1 = .error (.slip .pastEnd) := rfl

theorem run_positionBefore : positionBefore.run tokens (pos + 1) = .ok (pos, pos + 1) := rfl

theorem run_stepBack : stepBack.run tokens (pos + 1) = .ok ((), pos) := rfl

theorem run_textBetween {first stop : Nat} (h : first ≤ min stop tokens.length) :
    (textBetween first stop).run tokens pos =
      .ok (Token.displayAll ((tokens.take stop).drop first), pos) :=
  if_pos h

theorem ext {c d : Stepper α} (h : ∀ tokens pos, c.run tokens pos = d.run tokens pos) : c = d := by
  obtain ⟨run, _⟩ := c
  obtain ⟨run', _⟩ := d
  obtain rfl : run = run' := funext fun tokens => funext (h tokens)
  rfl

theorem bind_pure_eq (c : Stepper α) : c >>= pure = c := by
  refine ext fun tokens pos => ?_
  change (Stepper.bind c pure).run tokens pos = _
  simp only [Stepper.bind]
  split
  · next h => exact h.symm
  · next h => exact h.symm

theorem bind_bind_eq (c : Stepper α) (f : α → Stepper β) (g : β → Stepper κ) :
    c >>= f >>= g = c >>= fun a => f a >>= g := by
  refine ext fun tokens pos => ?_
  cases h : c.run tokens pos with
  | error halt =>
      rw [run_bind_of_error h, run_bind_of_error (run_bind_of_error h f)]
  | ok read =>
      obtain ⟨value, after⟩ := read
      rw [run_bind h]
      change (Stepper.bind (Stepper.bind c f) g).run tokens pos = _
      simp only [Stepper.bind, h]
      rfl

instance : LawfulMonad Stepper :=
  LawfulMonad.mk' _ bind_pure_eq (fun _ _ => rfl) bind_bind_eq

theorem fail_bind (expected : String) (f : α → Stepper β) :
    (fail expected >>= f) = fail expected := rfl

/-- A turn that goes on has another one behind it, from the position that it has reached. -/
theorem run_loop_of_again {turn : σ → Stepper (Turn σ ρ)} {state next : σ}
    (h : (turn state).run tokens pos = .ok (.again next, after)) (hpos : pos < after)
    (hafter : after ≤ tokens.length) :
    (loop turn state).run tokens pos = (loop turn next).run tokens after := by
  change loopFrom turn tokens state pos = loopFrom turn tokens next after
  rw [loopFrom, h]
  simp only [if_neg (Nat.not_le.2 hpos), if_neg (Nat.not_lt.2 hafter)]

/-- A turn that goes on and stays where it is, or moves back, is a slip. -/
theorem run_loop_of_idle {turn : σ → Stepper (Turn σ ρ)} {state next : σ}
    (h : (turn state).run tokens pos = .ok (.again next, after)) (hpos : after ≤ pos) :
    (loop turn state).run tokens pos = .error (.slip .idleTurn) := by
  change loopFrom turn tokens state pos = _
  rw [loopFrom, h]
  simp only [if_pos hpos]

example : (loop (fun _ => advance >>= fun _ => stepBack >>= fun _ => pure (.again ())) () :
    Stepper Unit).run [.comma] 0 = .error (.slip .idleTurn) :=
  run_loop_of_idle rfl (Nat.le_refl 0)

theorem run_loop_of_leave {turn : σ → Stepper (Turn σ ρ)} {state : σ} {result : ρ}
    (h : (turn state).run tokens pos = .ok (.leave result, after)) :
    (loop turn state).run tokens pos = .ok (result, after) := by
  change loopFrom turn tokens state pos = _
  rw [loopFrom, h]

theorem run_loop_of_error {turn : σ → Stepper (Turn σ ρ)} {state : σ} {halt : Halt}
    (h : (turn state).run tokens pos = .error halt) :
    (loop turn state).run tokens pos = .error halt := by
  change loopFrom turn tokens state pos = _
  rw [loopFrom, h]

end Run

end Stepper

/-! ### Positions and rests -/

/-- The position is in range, and these are the tokens from it on. -/
structure StandsAt (tokens : List Token) (pos : Nat) (rest : List Token) : Prop where
  le : pos ≤ tokens.length
  drop_eq : tokens.drop pos = rest

namespace StandsAt

variable {tokens rest left : List Token} {token : Token} {pos : Nat}

theorem start (tokens : List Token) : StandsAt tokens 0 tokens :=
  ⟨Nat.zero_le _, rfl⟩

theorem length_eq (h : StandsAt tokens pos rest) : tokens.length = pos + rest.length := by
  have hlength := congrArg List.length h.drop_eq
  have hle := h.le
  rw [List.length_drop] at hlength
  omega

theorem getElem?_add (h : StandsAt tokens pos rest) (distance : Nat) :
    tokens[pos + distance]? = rest[distance]? := by
  rw [← h.drop_eq, List.getElem?_drop]

theorem getElem?_eq (h : StandsAt tokens pos rest) : tokens[pos]? = rest.head? := by
  rw [List.head?_eq_getElem?, ← h.getElem?_add 0, Nat.add_zero]

theorem drop (h : StandsAt tokens pos rest) {count : Nat} (hcount : count ≤ rest.length) :
    StandsAt tokens (pos + count) (rest.drop count) where
  le := by
    have hlength := h.length_eq
    omega
  drop_eq := by rw [← List.drop_drop, h.drop_eq]

theorem tail (h : StandsAt tokens pos (token :: rest)) : StandsAt tokens (pos + 1) rest :=
  h.drop (Nat.succ_le_succ (Nat.zero_le _))

/-- The place where a suffix of the rest begins. -/
theorem of_suffix (h : StandsAt tokens pos rest) (hleft : left <:+ rest) :
    StandsAt tokens (tokens.length - left.length) left := by
  refine ⟨Nat.sub_le _ _, ?_⟩
  have hsuffix : left <:+ tokens := hleft.trans (h.drop_eq ▸ List.drop_suffix pos tokens)
  exact List.suffix_iff_eq_drop.1 hsuffix |>.symm

theorem le_of_suffix (h : StandsAt tokens pos rest) (hleft : left <:+ rest) :
    pos ≤ tokens.length - left.length := by
  have hlength := h.length_eq
  have hle := hleft.length_le
  omega

end StandsAt

namespace Stepper

variable {α β κ σ ρ : Type}

/-- Where a stepper ends that reads what a reader has read. -/
def landing (tokens : List Token) : Except Mismatch (α × List Token) → Except Halt (α × Nat)
  | .ok (value, rest) => .ok (value, tokens.length - rest.length)
  | .error mismatch => .error (.mismatch mismatch)

theorem landing_ok {tokens rest : List Token} {pos : Nat} (h : StandsAt tokens pos rest)
    (value : α) : landing tokens (.ok (value, rest)) = .ok (value, pos) := by
  have hlength := h.length_eq
  have hpos : tokens.length - rest.length = pos := by omega
  rw [landing, hpos]

/-- From a position on, the stepper reads what the reader reads. -/
def Tracks (tokens : List Token) (start : Nat) (c : Stepper α) (p : Reader α) : Prop :=
  ∀ pos rest, start ≤ pos → StandsAt tokens pos rest →
    c.run tokens pos = landing tokens (p.run rest)

/-- The stepper reads what the reader reads where this token comes next. -/
def TracksBefore (tokens : List Token) (start : Nat) (token : Token) (c : Stepper α)
    (p : Reader α) : Prop :=
  ∀ pos rest, start ≤ pos → StandsAt tokens pos (token :: rest) →
    c.run tokens pos = landing tokens (p.run (token :: rest))

/-- The stepper reads what the reader reads at the end of the tokens. -/
def TracksAtEnd (tokens : List Token) (start : Nat) (c : Stepper α) (p : Reader α) : Prop :=
  ∀ pos, start ≤ pos → StandsAt tokens pos [] → c.run tokens pos = landing tokens (p.run [])

variable {tokens : List Token} {start : Nat} {token : Token}

/-- Two parts that are tracked are tracked one after the other. -/
theorem run_bind_eq_landing {c : Stepper α} {p : Reader α} {f : α → Stepper β}
    {g : α → Reader β} {pos : Nat} {rest : List Token} (hpos : StandsAt tokens pos rest)
    (hstart : start ≤ pos) (hrun : c.run tokens pos = landing tokens (p.run rest))
    (hf : ∀ value, Tracks tokens start (f value) (g value)) :
    (c >>= f).run tokens pos = landing tokens ((p >>= g).run rest) := by
  cases hread : p.run rest with
  | error mismatch =>
      rw [hread] at hrun
      rw [run_bind_of_error hrun, Parser.run_bind_of_error hread]
      rfl
  | ok read =>
      obtain ⟨value, left⟩ := read
      rw [hread] at hrun
      have hleft := p.suffix hread
      rw [run_bind hrun, Parser.run_bind hread]
      exact hf value _ left (Nat.le_trans hstart (hpos.le_of_suffix hleft)) (hpos.of_suffix hleft)

theorem run_look {pos : Nat} {rest : List Token} (hpos : StandsAt tokens pos rest) :
    look.run tokens pos = .ok (rest.head?, pos) := by
  change Except.ok (tokens[pos]?, pos) = _
  rw [hpos.getElem?_eq]

theorem run_atEnd {pos : Nat} {rest : List Token} (hpos : StandsAt tokens pos rest) :
    atEnd.run tokens pos = .ok (rest.isEmpty, pos) := by
  change Except.ok (decide (tokens.length ≤ pos), pos) = _
  have hlength := hpos.length_eq
  cases rest with
  | nil => simp_all
  | cons token rest => simp_all

namespace Tracks

variable {c : Stepper α} {p : Reader α}

protected theorem pure (value : α) :
    Tracks tokens start (Pure.pure value) (Pure.pure value : Reader α) :=
  fun _ _ _ hpos => (landing_ok hpos value).symm

protected theorem bind {f : α → Stepper β} {g : α → Reader β} (h : Tracks tokens start c p)
    (hf : ∀ value, Tracks tokens start (f value) (g value)) :
    Tracks tokens start (c >>= f) (p >>= g) :=
  fun pos rest hstart hpos => run_bind_eq_landing hpos hstart (h pos rest hstart hpos) hf

protected theorem ite {other : Stepper α} {q : Reader α} {holds : Prop} [Decidable holds]
    (h : Tracks tokens start c p) (hother : Tracks tokens start other q) :
    Tracks tokens start (if holds then c else other) (if holds then p else q) := by
  by_cases hholds : holds
  · rw [if_pos hholds, if_pos hholds]
    exact h
  · rw [if_neg hholds, if_neg hholds]
    exact hother

theorem before (h : Tracks tokens start c p) : TracksBefore tokens start token c p :=
  fun pos rest => h pos (token :: rest)

/-- It is enough to look at the end and at each token that may come next. -/
theorem of_before (hend : TracksAtEnd tokens start c p)
    (h : ∀ token, TracksBefore tokens start token c p) : Tracks tokens start c p := by
  intro pos rest hstart hpos
  cases rest with
  | nil => exact hend pos hstart hpos
  | cons token rest => exact h token pos rest hstart hpos

protected theorem fail (expected : String) :
    Tracks tokens start (fail expected : Stepper α) (Reader.fail expected) := by
  intro pos rest _ hpos
  change Except.error (Halt.mismatch ⟨expected, tokens[pos]?⟩) = _
  rw [hpos.getElem?_eq]
  rfl

theorem look_peek : Tracks tokens start look (Parser.peek : Reader (Option Token)) := by
  intro pos rest _ hpos
  rw [run_look hpos]
  exact (landing_ok hpos _).symm

theorem atEnd_atEnd : Tracks tokens start atEnd (Parser.atEnd : Reader Bool) := by
  intro pos rest _ hpos
  rw [run_atEnd hpos]
  exact (landing_ok hpos _).symm

/-- What begins with a look at the next token is tracked if it is so for each token and at the
end. -/
theorem look_bind {f : Option Token → Stepper α} {g : Option Token → Reader α}
    (hend : Tracks tokens start (f none) (g none))
    (h : ∀ token, TracksBefore tokens start token (f (some token)) (g (some token))) :
    Tracks tokens start (look >>= f) (Parser.peek >>= g) := by
  intro pos rest hstart hpos
  rw [run_bind (run_look hpos), Parser.run_bind Parser.run_peek]
  cases rest with
  | nil => exact hend pos [] hstart hpos
  | cons token rest => exact h token pos rest hstart hpos

/-- A position that is kept is where the tokens begin that are kept. -/
theorem position_bind {f : Nat → Stepper α} {g : List Token → Reader α}
    (h : ∀ pos rest, start ≤ pos → StandsAt tokens pos rest → Tracks tokens pos (f pos) (g rest)) :
    Tracks tokens start (position >>= f) (Parser.remaining >>= g) := by
  intro pos rest hstart hpos
  rw [run_bind run_position, Parser.run_bind Parser.run_remaining]
  exact h pos rest hstart hpos pos rest (Nat.le_refl pos) hpos

/-- The text since a position is that of the tokens read since then. -/
theorem textSince {mark : Nat} {front : List Token} (hmark : StandsAt tokens mark front)
    (hle : mark ≤ start) :
    Tracks tokens start (do textBetween mark (← position)) (Reader.textSince front) := by
  intro pos rest hstart hpos
  have hread : front.length - rest.length = pos - mark := by
    have hlength := hmark.length_eq
    have hlength' := hpos.length_eq
    omega
  have htext : (tokens.take pos).drop mark = front.take (front.length - rest.length) := by
    rw [hread, List.drop_take, hmark.drop_eq]
  have hin : mark ≤ min pos tokens.length := by
    have hle' := hpos.le
    omega
  rw [run_bind run_position, run_textBetween hin, htext]
  exact (landing_ok hpos _).symm

/-- A loop tracks what reads one turn and then the others, if a turn that goes on reads a token. -/
protected theorem loop {turn : σ → Stepper (Turn σ ρ)} {q : σ → Reader (Turn σ ρ)}
    {p : σ → Reader ρ} (hturn : ∀ state, Tracks tokens start (turn state) (q state))
    (hq : ∀ state, p state = q state >>= Turn.goOn p)
    (htakes : ∀ state rest next left, (q state).run rest = .ok (.again next, left) →
      left.length < rest.length)
    (state : σ) : Tracks tokens start (loop turn state) (p state) := by
  intro pos rest hstart hpos
  -- on the number of tokens that are left: a turn with another one behind it has read some
  induction hsize : rest.length using Nat.strongRecOn generalizing state pos rest with
  | ind size ih =>
    have hrun := hturn state pos rest hstart hpos
    rw [hq]
    cases hread : (q state).run rest with
    | error mismatch =>
        rw [hread] at hrun
        rw [run_loop_of_error hrun, Parser.run_bind_of_error hread]
        rfl
    | ok read =>
        obtain ⟨turned, left⟩ := read
        have hleft := (q state).suffix hread
        rw [hread] at hrun
        rw [Parser.run_bind hread]
        cases turned with
        | leave result => exact run_loop_of_leave hrun
        | again next =>
            have hshorter := htakes state rest next left hread
            have hafter : pos < tokens.length - left.length := by
              have hlength := hpos.length_eq
              omega
            rw [run_loop_of_again hrun hafter (Nat.sub_le _ _)]
            exact ih left.length (hsize ▸ hshorter) next _ left
              (Nat.le_trans hstart (Nat.le_of_lt hafter)) (hpos.of_suffix hleft) rfl

end Tracks

namespace TracksAtEnd

variable {c : Stepper α} {p : Reader α}

theorem run_take {pos : Nat} (hpos : StandsAt tokens pos []) :
    take.run tokens pos = .ok (none, pos) := by
  rw [take, run_bind (run_look hpos)]
  rfl

/-- A result without a step, of a reader that reads nothing at the end. -/
protected theorem pure {value : α} (h : p.run [] = .ok (value, [])) :
    TracksAtEnd tokens start (pure value) p := by
  intro pos _ hpos
  rw [h]
  exact (landing_ok hpos value).symm

/-- A failure without a step. -/
protected theorem fail {expected : String} (h : p.run [] = .error ⟨expected, none⟩) :
    TracksAtEnd tokens start (fail expected) p := by
  intro pos hstart hpos
  rw [h]
  exact Tracks.fail expected pos [] hstart hpos

theorem look_left {f : Option Token → Stepper α} (h : TracksAtEnd tokens start (f none) p) :
    TracksAtEnd tokens start (look >>= f) p := by
  intro pos hstart hpos
  rw [run_bind (run_look hpos)]
  exact h pos hstart hpos

theorem atEnd_left {f : Bool → Stepper α} (h : TracksAtEnd tokens start (f true) p) :
    TracksAtEnd tokens start (atEnd >>= f) p := by
  intro pos hstart hpos
  rw [run_bind (run_atEnd hpos)]
  exact h pos hstart hpos

theorem take_left {f : Option Token → Stepper α} (h : TracksAtEnd tokens start (f none) p) :
    TracksAtEnd tokens start (take >>= f) p := by
  intro pos hstart hpos
  rw [run_bind (run_take hpos)]
  exact h pos hstart hpos

end TracksAtEnd

namespace TracksBefore

variable {c : Stepper α} {p : Reader α}

protected theorem bind {f : α → Stepper β} {g : α → Reader β}
    (h : TracksBefore tokens start token c p)
    (hf : ∀ value, Tracks tokens start (f value) (g value)) :
    TracksBefore tokens start token (c >>= f) (p >>= g) :=
  fun pos rest hstart hpos => run_bind_eq_landing hpos hstart (h pos rest hstart hpos) hf

theorem run_advance {pos : Nat} {rest : List Token} (hpos : StandsAt tokens pos (token :: rest)) :
    advance.run tokens pos = .ok ((), pos + 1) :=
  run_advanceBy hpos.tail.le

theorem run_take {pos : Nat} {rest : List Token} (hpos : StandsAt tokens pos (token :: rest)) :
    take.run tokens pos = .ok (some token, pos + 1) := by
  rw [take, run_bind (run_look hpos)]
  exact run_bind (run_advance hpos) _

/-- A result without a step, of a reader that reads nothing. -/
protected theorem pure {value : α}
    (h : ∀ rest, p.run (token :: rest) = .ok (value, token :: rest)) :
    TracksBefore tokens start token (pure value) p := by
  intro pos rest _ hpos
  rw [h]
  exact (landing_ok hpos value).symm

/-- A failure without a step. -/
protected theorem fail {expected : String}
    (h : ∀ rest, p.run (token :: rest) = .error ⟨expected, some token⟩) :
    TracksBefore tokens start token (fail expected) p := by
  intro pos rest hstart hpos
  rw [h]
  exact Tracks.fail expected pos _ hstart hpos

/-- A look at a token that is known. -/
theorem look_left {f : Option Token → Stepper α}
    (h : TracksBefore tokens start token (f (some token)) p) :
    TracksBefore tokens start token (look >>= f) p := by
  intro pos rest hstart hpos
  rw [run_bind (run_look hpos)]
  exact h pos rest hstart hpos

theorem atEnd_left {f : Bool → Stepper α} (h : TracksBefore tokens start token (f false) p) :
    TracksBefore tokens start token (atEnd >>= f) p := by
  intro pos rest hstart hpos
  rw [run_bind (run_atEnd hpos)]
  exact h pos rest hstart hpos

theorem peek_right {g : Option Token → Reader α}
    (h : TracksBefore tokens start token c (g (some token))) :
    TracksBefore tokens start token c (Parser.peek >>= g) := by
  intro pos rest hstart hpos
  rw [Parser.run_bind Parser.run_peek]
  exact h pos rest hstart hpos

/-- What passes the token is tracked by the reader that reads it. -/
theorem passes_next {d : Stepper β} {value : β} {f : β → Stepper α} {g : Option Token → Reader α}
    (hd : ∀ pos rest, start ≤ pos → StandsAt tokens pos (token :: rest) →
      d.run tokens pos = .ok (value, pos + 1))
    (h : Tracks tokens (start + 1) (f value) (g (some token))) :
    TracksBefore tokens start token (d >>= f) (Parser.next >>= g) := by
  intro pos rest hstart hpos
  have hnext : (Parser.next : Reader (Option Token)).run (token :: rest) =
      .ok (some token, rest) := rfl
  rw [run_bind (hd pos rest hstart hpos), Parser.run_bind hnext]
  exact h (pos + 1) rest (Nat.succ_le_succ hstart) hpos.tail

theorem advance_next {f : Unit → Stepper α} {g : Option Token → Reader α}
    (h : Tracks tokens (start + 1) (f ()) (g (some token))) :
    TracksBefore tokens start token (advance >>= f) (Parser.next >>= g) :=
  .passes_next (fun _ _ _ => run_advance) h

theorem take_next {f : Option Token → Stepper α} {g : Option Token → Reader α}
    (h : Tracks tokens (start + 1) (f (some token)) (g (some token))) :
    TracksBefore tokens start token (take >>= f) (Parser.next >>= g) :=
  .passes_next (fun _ _ _ => run_take) h

/-- A step over a token and back. -/
theorem advance_stepBack {f : Unit → Stepper α}
    (h : TracksBefore tokens start token (f ()) p) :
    TracksBefore tokens start token (advance >>= fun _ => stepBack >>= f) p := by
  intro pos rest hstart hpos
  rw [run_bind (run_advance hpos), run_bind run_stepBack]
  exact h pos rest hstart hpos

/-- A token that is taken and given back. -/
theorem take_stepBack {f : Option Token → Stepper α} {g : Unit → Stepper α}
    (hf : f (some token) = (stepBack >>= g)) (h : TracksBefore tokens start token (g ()) p) :
    TracksBefore tokens start token (take >>= f) p := by
  intro pos rest hstart hpos
  rw [run_bind (run_take hpos), hf, run_bind run_stepBack]
  exact h pos rest hstart hpos

end TracksBefore

protected theorem Tracks.consume (token : Token) :
    Tracks tokens start (consume token) (Parser.optionalToken token : Reader Bool) := by
  refine .of_before (.look_left (.pure rfl)) fun next pos rest _ hpos => ?_
  rw [consume, run_bind (run_look hpos), Parser.run_optionalToken]
  by_cases hnext : next = token
  · simp only [hnext, List.head?_cons, if_true, List.tail_cons]
    rw [run_bind (TracksBefore.run_advance hpos)]
    exact (landing_ok hpos.tail true).symm
  · simp only [Option.some.injEq, List.head?_cons, hnext, if_false]
    exact (landing_ok hpos false).symm

end Stepper
end Sql
end SchemaLint
