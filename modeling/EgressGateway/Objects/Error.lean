import Mathlib.Data.List.Basic

-- What `errors.As` and the type switches of the controllers can find in a returned error. A nil
-- dereference ends a reconcile like an error does, so it has a code of its own.
inductive Err.Code
  | other
  | notFound
  | conflict
  | alreadyExists
  | linkNotFound
  | panic
  deriving DecidableEq

structure Err where
  code : Err.Code
  text : String
  deriving DecidableEq

namespace Err

def errorf (text : String) : Err where
  code := .other
  text := text

-- `fmt.Errorf` with a `%w` verb at the end.
def wrap (context : String) (e : Err) : Err :=
  { e with text := context ++ e.text }

def nilDereference : Err where
  code := .panic
  text := "invalid memory address or nil pointer dereference"

def isNotFound (e : Err) : Bool :=
  e.code = .notFound

end Err

theorem ok_of_isOk {ε α : Type} {r : Except ε α} (h : r.isOk = true) : ∃ a, r = .ok a := by
  cases r
  case ok a  => exact ⟨a, rfl⟩
  case error => nomatch h
