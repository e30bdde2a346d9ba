import EntitySchema.Dispatch.Failure
import EntitySchema.Dispatch.TypeToken

/-!
# Traced answers

A registry asks its modules one after the other.  An answer comes with the questions that were asked
for it, in order; a failure ends the asking.
-/

namespace EntitySchema

/-- A question to a module. -/
inductive Call where
  | deserialize (moduleName : String) (type : RequestedType)
  | deserializeByClassName (moduleName className : String)
  | classNameForObject (moduleName : String)
  | encode (moduleName : String)
  | tableForType (moduleName : String) (type : RequestedType)
  deriving DecidableEq, Repr

/-- The text of a requested type in a trace. -/
def RequestedType.traceText : RequestedType → String
  | .text s => s
  | .class id => "class " ++ id

/-- The text of a question. -/
def Call.text : Call → String
  | .deserialize m type => m ++ " deserialize " ++ type.traceText
  | .deserializeByClassName m className => m ++ " deserializeByClassName " ++ className
  | .classNameForObject m => m ++ " classNameForObject"
  | .encode m => m ++ " encode"
  | .tableForType m type => m ++ " tableForType " ++ type.traceText

/-- An answer with the questions that were asked for it. -/
structure Traced (α : Type) where
  calls : List Call
  result : Except Failure α

namespace Traced

/-- An answer for which nothing is asked. -/
def done {α : Type} (a : α) : Traced α := ⟨[], .ok a⟩

/-- A failure for which nothing is asked. -/
def fail {α : Type} (f : Failure) : Traced α := ⟨[], .error f⟩

/-- Goes on with an answer. -/
def andThen {α β : Type} (x : Traced α) (f : α → Traced β) : Traced β :=
  match x.result with
  | .ok a => ⟨x.calls ++ (f a).calls, (f a).result⟩
  | .error f => ⟨x.calls, .error f⟩

instance : Monad Traced where
  pure := done
  bind := andThen

/-- What is decoded without asking. -/
def ofExcept {α : Type} (answer : Except Failure α) : Traced α := ⟨[], answer⟩

/-- The answer to a question. -/
def asked {α : Type} (c : Call) (answer : Except Failure α) : Traced α := ⟨[c], answer⟩

end Traced

end EntitySchema
