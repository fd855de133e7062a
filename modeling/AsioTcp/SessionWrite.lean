import AsioTcp.Lib.Interleaving

/-!
# The write side of `session_tcp`

`write`, `do_write`, `handler_write_header` and `handler_write_body` share
`msg_queue_` under `mutex_`. Each of them has one locked section, given here as
a function on the write side of the session, and `program` puts the sections
together: which call continues as which, with other threads free to run in
between. The lists next to `msgQueue` record what has happened so far; no
function reads them.

Messages are of any type `μ`: the code only moves pointers to them.
-/

namespace AsioTcp

/-- A frame is written in two parts, the header first. -/
inductive Part
  | header
  | body
  deriving DecidableEq, Repr

/-- An `async_write` of one part of a message. -/
structure WriteOp (μ : Type) where
  part : Part
  msg : μ
  deriving DecidableEq, Repr

/-- Who calls `do_write`. -/
inductive Caller
  | write
  | handlerWriteBody
  deriving DecidableEq, Repr

/-- A call of one of the four functions, at the point between two locked
sections, or the `async_write` that a call has left with asio. -/
inductive WriteCall (μ : Type)
  /-- `write` has pushed on an empty queue and released the lock; it formats
  `msg->body_length()` for the log and then calls `do_write` -/
  | writeOnEmpty (msg : μ)
  /-- `write` has pushed on a non-empty queue and released the lock; it
  formats `msg->body_length()` and `nSize` for the log and returns -/
  | writeQueued (msg : μ) (nSize : Nat)
  /-- `do_write` before it takes the lock -/
  | doWrite (caller : Caller)
  | asyncWrite (op : WriteOp μ)
  /-- the completion handler, waiting or before it takes the lock -/
  | handler (part : Part) (error : Bool)
  deriving DecidableEq, Repr

structure WriteSide (μ : Type) where
  msgQueue : List μ
  /-- messages pushed on the queue, in order -/
  pushed : List μ
  /-- messages popped from the queue, in order -/
  popped : List μ
  /-- `async_write` calls, in order -/
  issued : List (WriteOp μ)
  /-- writes that completed without an error, in order -/
  completed : List (WriteOp μ)
  /-- the handlers that found the queue empty, where they expect a message -/
  foundEmpty : List Part
  deriving DecidableEq, Repr

namespace WriteSide

variable {μ : Type}

def init : WriteSide μ := ⟨[], [], [], [], [], []⟩

/-- `msg_queue_.push_back(msg)`. -/
def push (s : WriteSide μ) (msg : μ) : WriteSide μ :=
  { s with msgQueue := s.msgQueue ++ [msg], pushed := s.pushed ++ [msg] }

def issue (s : WriteSide μ) (op : WriteOp μ) : WriteSide μ :=
  { s with issued := s.issued ++ [op] }

def complete (s : WriteSide μ) (op : WriteOp μ) : WriteSide μ :=
  { s with completed := s.completed ++ [op] }

/-- The locked section of `write`. -/
def write (s : WriteSide μ) (msg : μ) : WriteSide μ × WriteCall μ :=
  if s.msgQueue.isEmpty then (s.push msg, .writeOnEmpty msg)
  else (s.push msg, .writeQueued msg (s.push msg).msgQueue.length)

/-- The locked section of `do_write`: the header of the front message is
written, if there is one. -/
def doWrite (s : WriteSide μ) : WriteSide μ × Option (WriteOp μ) :=
  match s.msgQueue with
  | [] => (s, none)
  | msg :: _ => (s.issue ⟨.header, msg⟩, some ⟨.header, msg⟩)

/-- The locked section of `handler_write_header`: the body of what is now the
front message is written. -/
def handlerWriteHeader (s : WriteSide μ) : WriteSide μ × Option (WriteOp μ) :=
  match s.msgQueue with
  | [] => ({ s with foundEmpty := s.foundEmpty ++ [.header] }, none)
  | msg :: _ => (s.issue ⟨.body, msg⟩, some ⟨.body, msg⟩)

/-- The locked section of `handler_write_body`: the front message goes back to
the allocator and is popped. -/
def handlerWriteBody (s : WriteSide μ) : WriteSide μ :=
  match s.msgQueue with
  | [] => { s with foundEmpty := s.foundEmpty ++ [.body] }
  | msg :: rest => { s with msgQueue := rest, popped := s.popped ++ [msg] }

end WriteSide

namespace SessionWrite

variable {μ : Type}

/-- The `async_write` a section has issued, left with asio. -/
def pending : Option (WriteOp μ) → Multiset (WriteCall μ)
  | none => 0
  | some op => {.asyncWrite op}

/-- What follows the point at which a call stands. For an `async_write` the
flag is the outcome that asio reports. The error branches of the handlers do
nothing to the write side: they leave the session to `connection_mgr::leave`. -/
def next (s : WriteSide μ) (c : WriteCall μ) (error : Bool) :
    WriteSide μ × Multiset (WriteCall μ) :=
  match c with
  | .writeOnEmpty _ => (s, {.doWrite .write})
  | .writeQueued _ _ => (s, 0)
  | .doWrite _ => (s.doWrite.1, pending s.doWrite.2)
  | .asyncWrite op => (if error then s else s.complete op, {.handler op.part error})
  | .handler _ true => (s, 0)
  | .handler .header false => (s.handlerWriteHeader.1, pending s.handlerWriteHeader.2)
  | .handler .body false => (s.handlerWriteBody, {.doWrite .handlerWriteBody})

/-- One session whose four functions run on any number of threads; any thread
may call `write` with any message at any time. -/
def program (μ : Type) : Interleaving.Program (WriteSide μ) (WriteCall μ) μ Bool where
  enter s _ msg := some ((s.write msg).1, {(s.write msg).2})
  next s _ c error := some (next s c error)

abbrev Config (μ : Type) := Interleaving.Config (WriteSide μ) (WriteCall μ)
abbrev Action (μ : Type) := Interleaving.Action (WriteCall μ) μ Bool

def start (μ : Type) : Config μ := ⟨.init, 0⟩

/-- No `async_write` fails. -/
def NoError : Config μ → Action μ → Prop
  | _, .run (.asyncWrite _) error => error = false
  | _, _ => True

instance : ∀ (s : Config μ) (a : Action μ), Decidable (NoError s a)
  | _, .enter _ => isTrue trivial
  | _, .run (.asyncWrite _) error => inferInstanceAs (Decidable (error = false))
  | _, .run (.writeOnEmpty _) _ => isTrue trivial
  | _, .run (.writeQueued _ _) _ => isTrue trivial
  | _, .run (.doWrite _) _ => isTrue trivial
  | _, .run (.handler _ _) _ => isTrue trivial

/-- The two writes of each message of a list. -/
def frames (ms : List μ) : List (WriteOp μ) := ms.flatMap fun m => [⟨.header, m⟩, ⟨.body, m⟩]

@[simp] theorem frames_nil : frames ([] : List μ) = [] := rfl

@[simp] theorem frames_cons (m : μ) (ms : List μ) :
    frames (m :: ms) = ⟨.header, m⟩ :: ⟨.body, m⟩ :: frames ms := rfl

@[simp] theorem frames_append (ms ms' : List μ) : frames (ms ++ ms') = frames ms ++ frames ms' := by
  simp [frames]

variable [DecidableEq μ]

theorem step_enter (s : Config μ) (msg : μ) : (program μ).step s (.enter msg) =
    some ⟨(s.shared.write msg).1, (s.shared.write msg).2 ::ₘ s.calls⟩ := by
  simp [Interleaving.Program.step, program]

theorem step_run (w : WriteSide μ) (c : WriteCall μ) (rest : Multiset (WriteCall μ))
    (error : Bool) : (program μ).step ⟨w, c ::ₘ rest⟩ (.run c error) =
      some ⟨(next w c error).1, (next w c error).2 + rest⟩ :=
  Interleaving.Program.run_of_next rfl

/-- What one step of the program can be. -/
theorem step_cases {s t : Config μ} {a : Action μ} (h : (program μ).step s a = some t) :
    (∃ msg, a = .enter msg ∧ t = ⟨(s.shared.write msg).1, (s.shared.write msg).2 ::ₘ s.calls⟩) ∨
    (∃ c error rest, a = .run c error ∧ s.calls = c ::ₘ rest ∧
      t = ⟨(next s.shared c error).1, (next s.shared c error).2 + rest⟩) := by
  cases a with
  | enter msg =>
    rw [step_enter] at h
    exact Or.inl ⟨msg, rfl, (Option.some.inj h).symm⟩
  | run c error =>
    obtain ⟨rest, cs, hrest, hcs, ht⟩ := Interleaving.Program.step_run h
    simp only [program, Option.some.injEq] at hcs
    refine Or.inr ⟨c, error, rest, rfl, hrest, ?_⟩
    cases t
    simp_all

end SessionWrite

end AsioTcp
