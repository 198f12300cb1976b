import SymbolicBytecode.Files

/-!
# Loading errors

Why a class cannot be loaded.
-/

namespace SymbolicBytecode

inductive LoadError where
  /-- No directory has a file for the class; the reason is that of the last one, if there is any. -/
  | notFound (className : String) (reason : Option FileError)
  | malformed (className : String) (e : ReadError)
  | unsupportedVersion (className : String) (major minor : UInt16)
  /-- The file for the class is the file of some other class. -/
  | otherClass (className path : String)
  | superclassIsInterface (superName className : String)
  | superinterfaceIsClass (interfaceName className : String)
  /-- The class is being loaded already: it is among its own supertypes. -/
  | circularity (className : String)
  deriving DecidableEq, Repr

namespace LoadError

def reasonText : Option FileError → String
  | some e => e.message
  | none => "empty classpath"

def message : LoadError → String
  | notFound className reason => "class " ++ className ++ " not found: " ++ reasonText reason
  | malformed className e => "class " ++ className ++ " is malformed: " ++ e.message
  | unsupportedVersion className major minor =>
    "class " ++ className ++ " has unsupported version " ++ toString major.toNat ++ "." ++
      toString minor.toNat
  | otherClass className path => path ++ " does not define " ++ className
  | superclassIsInterface superName className =>
    "incompatible class change: superclass " ++ superName ++ " of " ++ className ++
      " is an interface"
  | superinterfaceIsClass interfaceName className =>
    "incompatible class change: superinterface " ++ interfaceName ++ " of " ++ className ++
      " is a class"
  | circularity className => "class circularity at " ++ className

end LoadError

end SymbolicBytecode
