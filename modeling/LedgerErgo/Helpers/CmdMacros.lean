import LedgerErgo.Context

/-! # Checks of the handlers

A handler checks its command, the session and what it reads. The first check that fails makes
the handler answer with an error, and the error handler of the command resets the context.
-/

namespace LedgerErgo

open LedgerErgo.Common LedgerErgo.Prog

variable {α : Type}

/-- `send_error`, and `handler_err` of the commands without a session -/
def sendError (err : Sw) : AppM α := do
  modify (App.setCurrentCommand .none)
  throw err

/-- Errors of the call go to the error handler of the command: the context is marked, then all of
    it is erased. -/
def orSendError (mark : App → App) (call : AppM α) : AppM α := fun app =>
  match call app with
  | .ok a app => .ok a app
  | .error err app => sendError err (mark app)

/-- `CHECK_COMMAND` -/
def checkCommand (command : Command) : AppM Unit := do
  let app ← get
  ensure (app.currentCommand = command) .badState

/-- `CHECK_READ_PARAM` -/
def checkReadParam (read : Option α) (err : Sw) : AppM α :=
  match read with
  | some a => pure a
  | none => throw err

/-- `CHECK_PARAMS_FINISHED` -/
def checkParamsFinished (buffer : Buffer) : AppM Unit :=
  ensure (bufferCanRead buffer 1 = false) .tooMuchData

/-- `buffer_read_u32` of a token that is there or not. -/
def readToken (hasToken : Bool) (buffer : Buffer) : Option (UInt32 × Buffer) :=
  if hasToken then bufferReadU32 buffer else some (0, buffer)

section Results

variable {call : AppM α} {mark : App → App} {s t : App} {a : α} {err : Sw}

@[simp] theorem sendError_ok : (sendError err : AppM α) s = .ok a t ↔ False := by
  simp [sendError]

@[simp] theorem sendError_error {e : Sw} :
    (sendError err : AppM α) s = .error e t ↔ err = e ∧ s.setCurrentCommand .none = t := by
  simp [sendError, bind_error, throw_error]

@[simp] theorem orSendError_ok : orSendError mark call s = .ok a t ↔ call s = .ok a t := by
  unfold orSendError
  cases call s with
  | ok => rfl
  | error => simp

theorem checkReadParam_ok {read : Option α} :
    checkReadParam read err s = .ok a t ↔ read = some a ∧ s = t := by
  cases read with
  | none => simp [checkReadParam]
  | some b => simp [checkReadParam]

/-- After an error there is no command and its context is erased. -/
theorem orSendError_error :
    orSendError mark call s = .error err t ↔
      ∃ u, call s = .error err u ∧ (mark u).setCurrentCommand .none = t := by
  unfold orSendError
  cases call s with
  | ok => simp
  | error => simp

theorem orSendError_run_ok (ran : call s = .ok a t) : orSendError mark call s = .ok a t := by
  rw [orSendError, ran]

theorem final_orSendError (ran : call s = .error err t) :
    final (orSendError mark call s) = (mark t).setCurrentCommand .none := by
  rw [orSendError, ran]
  rfl

end Results

section Moves

variable {R : App → App → Prop} {call : AppM α} {mark : App → App}

theorem moves_sendError {err : Sw} (clears : ∀ s : App, R s (s.setCurrentCommand .none)) :
    Moves R (sendError err : AppM α) := clears

/-- The call may do anything that is related, if erasing the context is. -/
theorem moves_orSendError [IsTrans App R] (moves : Moves R call)
    (clears : ∀ s : App, R s ((mark s).setCurrentCommand .none)) :
    Moves R (orSendError mark call) := by
  intro s
  have moved := moves s
  unfold orSendError
  cases ran : call s with
  | ok a t =>
      rw [ran] at moved
      exact moved
  | error err t =>
      rw [ran] at moved
      exact trans_of R moved (clears t)

theorem moves_checkCommand [Std.Refl R] [IsTrans App R] {command : Command} :
    Moves R (checkCommand command) := Moves.get.bind fun _ => .ensure

theorem moves_checkReadParam [Std.Refl R] {read : Option α} {err : Sw} :
    Moves R (checkReadParam read err) := by
  cases read with
  | none => exact .throw
  | some a => exact .pure

theorem moves_checkParamsFinished [Std.Refl R] {buffer : Buffer} :
    Moves R (checkParamsFinished buffer) := .ensure

end Moves

end LedgerErgo
