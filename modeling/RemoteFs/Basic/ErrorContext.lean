import RemoteFs.Library.Result

/-!
# Error context

`ResultContext` wraps the error of a failed result in the operation that was
being attempted and leaves a success alone. The error types of the program
implement `ResultContextError` by their `Context` constructor.
-/

namespace RemoteFs

/-- Error types that can be wrapped in an operation context. -/
class ResultContextError (ε : Type*) where
  withContext : ε → String → ε

def withContext {ε α : Type*} [ResultContextError ε] (result : Except ε α)
    (operation : String) : Except ε α :=
  result.mapError fun source => ResultContextError.withContext source operation

@[simp] theorem withContext_eq_ok_iff {ε α : Type*} [ResultContextError ε]
    (result : Except ε α) (operation : String) (a : α) :
    withContext result operation = .ok a ↔ result = .ok a :=
  Result.mapError_eq_ok_iff _ result a

@[simp] theorem withContext_ok {ε α : Type*} [ResultContextError ε] (a : α)
    (operation : String) : withContext (.ok a : Except ε α) operation = .ok a := rfl

@[simp] theorem withContext_error {ε α : Type*} [ResultContextError ε] (e : ε)
    (operation : String) :
    withContext (.error e : Except ε α) operation =
      .error (ResultContextError.withContext e operation) := rfl

end RemoteFs
