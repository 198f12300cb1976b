/-!
# Exceptions of the machine

The exceptions and errors that execution itself creates and throws. Every other exception is thrown
by the program under execution.
-/

namespace SymbolicBytecode

inductive Throwable where
  | arithmeticException
  | arrayIndexOutOfBoundsException
  | classCastException
  | indexOutOfBoundsException
  | negativeArraySizeException
  | nullPointerException
  | abstractMethodError
  | illegalAccessError
  | incompatibleClassChangeError
  | noClassDefFoundError
  | noSuchFieldError
  | noSuchMethodError
  | verifyError
  | outOfMemoryError
  deriving DecidableEq, Repr

namespace Throwable

def all : List Throwable :=
  [arithmeticException, arrayIndexOutOfBoundsException, classCastException,
    indexOutOfBoundsException, negativeArraySizeException, nullPointerException,
    abstractMethodError, illegalAccessError, incompatibleClassChangeError, noClassDefFoundError,
    noSuchFieldError, noSuchMethodError, verifyError, outOfMemoryError]

def simpleName : Throwable → String
  | arithmeticException => "ArithmeticException"
  | arrayIndexOutOfBoundsException => "ArrayIndexOutOfBoundsException"
  | classCastException => "ClassCastException"
  | indexOutOfBoundsException => "IndexOutOfBoundsException"
  | negativeArraySizeException => "NegativeArraySizeException"
  | nullPointerException => "NullPointerException"
  | abstractMethodError => "AbstractMethodError"
  | illegalAccessError => "IllegalAccessError"
  | incompatibleClassChangeError => "IncompatibleClassChangeError"
  | noClassDefFoundError => "NoClassDefFoundError"
  | noSuchFieldError => "NoSuchFieldError"
  | noSuchMethodError => "NoSuchMethodError"
  | verifyError => "VerifyError"
  | outOfMemoryError => "OutOfMemoryError"

def className (t : Throwable) : String := "java/lang/" ++ t.simpleName

/-- The direct superclass. -/
def superclass : Throwable → String
  | arithmeticException | classCastException | indexOutOfBoundsException
  | negativeArraySizeException | nullPointerException => "java/lang/RuntimeException"
  | arrayIndexOutOfBoundsException => "java/lang/IndexOutOfBoundsException"
  | abstractMethodError | illegalAccessError | noSuchFieldError
  | noSuchMethodError => "java/lang/IncompatibleClassChangeError"
  | incompatibleClassChangeError | noClassDefFoundError | verifyError => "java/lang/LinkageError"
  | outOfMemoryError => "java/lang/VirtualMachineError"

theorem mem_all (t : Throwable) : t ∈ all := by
  cases t <;> decide

end Throwable

end SymbolicBytecode
