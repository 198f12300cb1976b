import SymbolicBytecode.Descriptor.Method

/-!
# Method signatures

A method is identified by the class that declares it, or is named as declaring it, together with
its name and descriptor.
-/

namespace SymbolicBytecode

structure Signature where
  className : String
  name : String
  descriptor : String
  deriving DecidableEq, Repr

namespace Signature

/-- The class initialization method of a class. -/
def initializer (className : String) : Signature := ⟨className, "<clinit>", "()V"⟩

def isInitializer (s : Signature) : Bool := s.name = "<clinit>"

/-- The same name and descriptor, declared in another class. -/
def inClass (s : Signature) (className : String) : Signature := { s with className }

def methodDescriptor (s : Signature) : Except MalformedDescriptor MethodDescriptor :=
  MethodDescriptor.parse s.descriptor

def text (s : Signature) : String := s.className ++ "." ++ s.name ++ s.descriptor

def inspect (s : Signature) : Inspection :=
  .record "Signature" [("class", .text s.className), ("name", .text s.name),
    ("descriptor", .text s.descriptor)]

end Signature

/-- The run-time package of a class: its name up to the last slash. -/
def packageOf (className : String) : String :=
  String.ofList ((className.toList.reverse.dropWhile (· ≠ '/')).drop 1).reverse

end SymbolicBytecode
