import ChatServer.Python.Basic

/-!
# Errors of the store, as the controllers see them

`handle_storage_errors` of `error_handling.py`, around a computation that may raise.
-/

/-- What a controller can see raised: an exception as it is, or the `StorageError` in
whose place it was raised. -/
inductive WebExc where
  | raised (e : PyExc)
  | storageError (message : String) (original : PyExc)
deriving DecidableEq, Repr

/-- `str(e)` of an exception that was raised with one text. -/
def PyExc.str : PyExc → String
  | valueError message | typeError message | indexError message | attributeError message => message
  | fileNotFoundError message | fileExistsError message | permissionError message => message
  | osError message | systemExit message => message
  | authenticationError message | anyLlmError message | other _ message => message
  | keyError key => key
  | cancelledError => ""

/-- `except FileNotFoundError: raise`, `except FileExistsError: raise`, and then
`except (PermissionError, OSError, ValueError)`. -/
def handleStorageErrors {α : Type} (operation sessionId : String) :
    Except PyExc α → Except WebExc α
  | .ok a => .ok a
  | .error (.fileNotFoundError message) => .error (.raised (.fileNotFoundError message))
  | .error (.fileExistsError message) => .error (.raised (.fileExistsError message))
  | .error (.permissionError message) =>
      .error (.storageError s!"{operation} session {sessionId}" (.permissionError message))
  | .error (.osError message) =>
      .error (.storageError s!"{operation} session {sessionId}" (.osError message))
  | .error (.valueError message) =>
      .error (.storageError s!"{operation} session {sessionId}" (.valueError message))
  | .error e => .error (.raised e)

theorem handleStorageErrors_eq_ok {α : Type} {operation sessionId : String}
    {x : Except PyExc α} {a : α} :
    handleStorageErrors operation sessionId x = .ok a ↔ x = .ok a := by
  cases x with
  | ok b => exact ⟨fun h ↦ congrArg _ (Except.ok.inj h), fun h ↦ congrArg _ (Except.ok.inj h)⟩
  | error e =>
      constructor
      · intro h
        cases e <;> cases h
      · intro h
        cases h
