/-
# Classes of failures

The closed hierarchy of failures that an operation can end in.  Most classes are the general ones of
the runtime that a tool lives in; two families are this library's own, one for the invocation of a
tool and one for access to files.  A class knows its ancestors, itself first, and that is all that
decides how a failure is classified.
-/

namespace Dissect

/-- A class of failures. -/
inductive FaultClass where
  | disassemblerError
  | toolNotConfiguredError
  | toolLoadError
  | toolAccessError
  | toolExitError
  | ephemeralResourceError
  | securityError
  | pathTraversalError
  | fileSizeError
  | baseException
  | baseExceptionGroup
  | exceptionGroup
  | exception
  | arithmeticError
  | floatingPointError
  | overflowError
  | zeroDivisionError
  | assertionError
  | attributeError
  | bufferError
  | eofError
  | importError
  | moduleNotFoundError
  | lookupError
  | indexError
  | keyError
  | memoryError
  | nameError
  | unboundLocalError
  | osError
  | blockingIOError
  | childProcessError
  | connectionError
  | brokenPipeError
  | connectionAbortedError
  | connectionRefusedError
  | connectionResetError
  | fileExistsError
  | fileNotFoundError
  | interruptedError
  | isADirectoryError
  | notADirectoryError
  | permissionError
  | processLookupError
  | timeoutError
  | referenceError
  | runtimeError
  | notImplementedError
  | recursionError
  | stopAsyncIteration
  | stopIteration
  | syntaxError
  | indentationError
  | tabError
  | systemError
  | typeError
  | valueError
  | unicodeError
  | unicodeDecodeError
  | unicodeEncodeError
  | unicodeTranslateError
  | warning
  | bytesWarning
  | deprecationWarning
  | encodingWarning
  | futureWarning
  | importWarning
  | pendingDeprecationWarning
  | resourceWarning
  | runtimeWarning
  | syntaxWarning
  | unicodeWarning
  | userWarning
  | generatorExit
  | keyboardInterrupt
  | systemExit
deriving DecidableEq, Repr

namespace FaultClass

/-- The name of a class. -/
def name : FaultClass → String
  | .disassemblerError => "DisassemblerError"
  | .toolNotConfiguredError => "ToolNotConfiguredError"
  | .toolLoadError => "ToolLoadError"
  | .toolAccessError => "ToolAccessError"
  | .toolExitError => "ToolExitError"
  | .ephemeralResourceError => "EphemeralResourceError"
  | .securityError => "SecurityError"
  | .pathTraversalError => "PathTraversalError"
  | .fileSizeError => "FileSizeError"
  | .baseException => "BaseException"
  | .baseExceptionGroup => "BaseExceptionGroup"
  | .exceptionGroup => "ExceptionGroup"
  | .exception => "Exception"
  | .arithmeticError => "ArithmeticError"
  | .floatingPointError => "FloatingPointError"
  | .overflowError => "OverflowError"
  | .zeroDivisionError => "ZeroDivisionError"
  | .assertionError => "AssertionError"
  | .attributeError => "AttributeError"
  | .bufferError => "BufferError"
  | .eofError => "EOFError"
  | .importError => "ImportError"
  | .moduleNotFoundError => "ModuleNotFoundError"
  | .lookupError => "LookupError"
  | .indexError => "IndexError"
  | .keyError => "KeyError"
  | .memoryError => "MemoryError"
  | .nameError => "NameError"
  | .unboundLocalError => "UnboundLocalError"
  | .osError => "OSError"
  | .blockingIOError => "BlockingIOError"
  | .childProcessError => "ChildProcessError"
  | .connectionError => "ConnectionError"
  | .brokenPipeError => "BrokenPipeError"
  | .connectionAbortedError => "ConnectionAbortedError"
  | .connectionRefusedError => "ConnectionRefusedError"
  | .connectionResetError => "ConnectionResetError"
  | .fileExistsError => "FileExistsError"
  | .fileNotFoundError => "FileNotFoundError"
  | .interruptedError => "InterruptedError"
  | .isADirectoryError => "IsADirectoryError"
  | .notADirectoryError => "NotADirectoryError"
  | .permissionError => "PermissionError"
  | .processLookupError => "ProcessLookupError"
  | .timeoutError => "TimeoutError"
  | .referenceError => "ReferenceError"
  | .runtimeError => "RuntimeError"
  | .notImplementedError => "NotImplementedError"
  | .recursionError => "RecursionError"
  | .stopAsyncIteration => "StopAsyncIteration"
  | .stopIteration => "StopIteration"
  | .syntaxError => "SyntaxError"
  | .indentationError => "IndentationError"
  | .tabError => "TabError"
  | .systemError => "SystemError"
  | .typeError => "TypeError"
  | .valueError => "ValueError"
  | .unicodeError => "UnicodeError"
  | .unicodeDecodeError => "UnicodeDecodeError"
  | .unicodeEncodeError => "UnicodeEncodeError"
  | .unicodeTranslateError => "UnicodeTranslateError"
  | .warning => "Warning"
  | .bytesWarning => "BytesWarning"
  | .deprecationWarning => "DeprecationWarning"
  | .encodingWarning => "EncodingWarning"
  | .futureWarning => "FutureWarning"
  | .importWarning => "ImportWarning"
  | .pendingDeprecationWarning => "PendingDeprecationWarning"
  | .resourceWarning => "ResourceWarning"
  | .runtimeWarning => "RuntimeWarning"
  | .syntaxWarning => "SyntaxWarning"
  | .unicodeWarning => "UnicodeWarning"
  | .userWarning => "UserWarning"
  | .generatorExit => "GeneratorExit"
  | .keyboardInterrupt => "KeyboardInterrupt"
  | .systemExit => "SystemExit"

/-- The class and its ancestors, from the nearest to the root. -/
def ancestors : FaultClass → List FaultClass
  | .disassemblerError => [.disassemblerError, .exception, .baseException]
  | .toolNotConfiguredError =>
    [.toolNotConfiguredError, .disassemblerError, .exception, .baseException]
  | .toolLoadError => [.toolLoadError, .disassemblerError, .exception, .baseException]
  | .toolAccessError =>
    [.toolAccessError, .toolLoadError, .disassemblerError, .exception, .baseException]
  | .toolExitError => [.toolExitError, .disassemblerError, .exception, .baseException]
  | .ephemeralResourceError =>
    [.ephemeralResourceError, .disassemblerError, .exception, .baseException]
  | .securityError => [.securityError, .exception, .baseException]
  | .pathTraversalError => [.pathTraversalError, .securityError, .exception, .baseException]
  | .fileSizeError => [.fileSizeError, .securityError, .exception, .baseException]
  | .baseException => [.baseException]
  | .baseExceptionGroup => [.baseExceptionGroup, .baseException]
  | .exceptionGroup => [.exceptionGroup, .baseExceptionGroup, .exception, .baseException]
  | .exception => [.exception, .baseException]
  | .arithmeticError => [.arithmeticError, .exception, .baseException]
  | .floatingPointError => [.floatingPointError, .arithmeticError, .exception, .baseException]
  | .overflowError => [.overflowError, .arithmeticError, .exception, .baseException]
  | .zeroDivisionError => [.zeroDivisionError, .arithmeticError, .exception, .baseException]
  | .assertionError => [.assertionError, .exception, .baseException]
  | .attributeError => [.attributeError, .exception, .baseException]
  | .bufferError => [.bufferError, .exception, .baseException]
  | .eofError => [.eofError, .exception, .baseException]
  | .importError => [.importError, .exception, .baseException]
  | .moduleNotFoundError => [.moduleNotFoundError, .importError, .exception, .baseException]
  | .lookupError => [.lookupError, .exception, .baseException]
  | .indexError => [.indexError, .lookupError, .exception, .baseException]
  | .keyError => [.keyError, .lookupError, .exception, .baseException]
  | .memoryError => [.memoryError, .exception, .baseException]
  | .nameError => [.nameError, .exception, .baseException]
  | .unboundLocalError => [.unboundLocalError, .nameError, .exception, .baseException]
  | .osError => [.osError, .exception, .baseException]
  | .blockingIOError => [.blockingIOError, .osError, .exception, .baseException]
  | .childProcessError => [.childProcessError, .osError, .exception, .baseException]
  | .connectionError => [.connectionError, .osError, .exception, .baseException]
  | .brokenPipeError => [.brokenPipeError, .connectionError, .osError, .exception, .baseException]
  | .connectionAbortedError =>
    [.connectionAbortedError, .connectionError, .osError, .exception, .baseException]
  | .connectionRefusedError =>
    [.connectionRefusedError, .connectionError, .osError, .exception, .baseException]
  | .connectionResetError =>
    [.connectionResetError, .connectionError, .osError, .exception, .baseException]
  | .fileExistsError => [.fileExistsError, .osError, .exception, .baseException]
  | .fileNotFoundError => [.fileNotFoundError, .osError, .exception, .baseException]
  | .interruptedError => [.interruptedError, .osError, .exception, .baseException]
  | .isADirectoryError => [.isADirectoryError, .osError, .exception, .baseException]
  | .notADirectoryError => [.notADirectoryError, .osError, .exception, .baseException]
  | .permissionError => [.permissionError, .osError, .exception, .baseException]
  | .processLookupError => [.processLookupError, .osError, .exception, .baseException]
  | .timeoutError => [.timeoutError, .osError, .exception, .baseException]
  | .referenceError => [.referenceError, .exception, .baseException]
  | .runtimeError => [.runtimeError, .exception, .baseException]
  | .notImplementedError => [.notImplementedError, .runtimeError, .exception, .baseException]
  | .recursionError => [.recursionError, .runtimeError, .exception, .baseException]
  | .stopAsyncIteration => [.stopAsyncIteration, .exception, .baseException]
  | .stopIteration => [.stopIteration, .exception, .baseException]
  | .syntaxError => [.syntaxError, .exception, .baseException]
  | .indentationError => [.indentationError, .syntaxError, .exception, .baseException]
  | .tabError => [.tabError, .indentationError, .syntaxError, .exception, .baseException]
  | .systemError => [.systemError, .exception, .baseException]
  | .typeError => [.typeError, .exception, .baseException]
  | .valueError => [.valueError, .exception, .baseException]
  | .unicodeError => [.unicodeError, .valueError, .exception, .baseException]
  | .unicodeDecodeError =>
    [.unicodeDecodeError, .unicodeError, .valueError, .exception, .baseException]
  | .unicodeEncodeError =>
    [.unicodeEncodeError, .unicodeError, .valueError, .exception, .baseException]
  | .unicodeTranslateError =>
    [.unicodeTranslateError, .unicodeError, .valueError, .exception, .baseException]
  | .warning => [.warning, .exception, .baseException]
  | .bytesWarning => [.bytesWarning, .warning, .exception, .baseException]
  | .deprecationWarning => [.deprecationWarning, .warning, .exception, .baseException]
  | .encodingWarning => [.encodingWarning, .warning, .exception, .baseException]
  | .futureWarning => [.futureWarning, .warning, .exception, .baseException]
  | .importWarning => [.importWarning, .warning, .exception, .baseException]
  | .pendingDeprecationWarning => [.pendingDeprecationWarning, .warning, .exception, .baseException]
  | .resourceWarning => [.resourceWarning, .warning, .exception, .baseException]
  | .runtimeWarning => [.runtimeWarning, .warning, .exception, .baseException]
  | .syntaxWarning => [.syntaxWarning, .warning, .exception, .baseException]
  | .unicodeWarning => [.unicodeWarning, .warning, .exception, .baseException]
  | .userWarning => [.userWarning, .warning, .exception, .baseException]
  | .generatorExit => [.generatorExit, .baseException]
  | .keyboardInterrupt => [.keyboardInterrupt, .baseException]
  | .systemExit => [.systemExit, .baseException]

/-- The first class is the second or lies below it. -/
def isA (c d : FaultClass) : Bool := c.ancestors.contains d

/-- All classes, this library's own first. -/
def all : List FaultClass :=
  [.disassemblerError, .toolNotConfiguredError, .toolLoadError, .toolAccessError, .toolExitError,
   .ephemeralResourceError, .securityError, .pathTraversalError, .fileSizeError, .baseException,
   .baseExceptionGroup, .exceptionGroup, .exception, .arithmeticError, .floatingPointError,
   .overflowError, .zeroDivisionError, .assertionError, .attributeError, .bufferError, .eofError,
   .importError, .moduleNotFoundError, .lookupError, .indexError, .keyError, .memoryError,
   .nameError, .unboundLocalError, .osError, .blockingIOError, .childProcessError,
   .connectionError, .brokenPipeError, .connectionAbortedError, .connectionRefusedError,
   .connectionResetError, .fileExistsError, .fileNotFoundError, .interruptedError,
   .isADirectoryError, .notADirectoryError, .permissionError, .processLookupError, .timeoutError,
   .referenceError, .runtimeError, .notImplementedError, .recursionError, .stopAsyncIteration,
   .stopIteration, .syntaxError, .indentationError, .tabError, .systemError, .typeError,
   .valueError, .unicodeError, .unicodeDecodeError, .unicodeEncodeError, .unicodeTranslateError,
   .warning, .bytesWarning, .deprecationWarning, .encodingWarning, .futureWarning,
   .importWarning, .pendingDeprecationWarning, .resourceWarning, .runtimeWarning, .syntaxWarning,
   .unicodeWarning, .userWarning, .generatorExit, .keyboardInterrupt, .systemExit]

/-- Two more names under which a class is known. -/
def aliases : List (String × FaultClass) :=
  [("EnvironmentError", .osError), ("IOError", .osError)]

/-- The class of a name. -/
def ofName? (name : String) : Option FaultClass :=
  (all.find? (·.name == name)).or (aliases.lookup name)

/-- What a report puts before the names of this library's own classes. -/
def home (c : FaultClass) : String :=
  if c.isA .disassemblerError then "classview.engines.static.invocation.errors."
  else if c.isA .securityError then "classview.utils.security."
  else ""

/-- The name of a class in a report. -/
def qualified (c : FaultClass) : String := c.home ++ c.name

/-- An ordinary failure: one that a caller may catch, other than a request to stop. -/
def isOrdinary (c : FaultClass) : Bool := c.isA .exception

/-! ## 1. Laws -/

@[simp] theorem isA_self (c : FaultClass) : c.isA c = true := by
  cases c <;> decide

theorem mem_all (c : FaultClass) : c ∈ all := by
  cases c <;> decide

theorem isA_trans {a b c : FaultClass} (hab : a.isA b = true) (hbc : b.isA c = true) :
    a.isA c = true := by
  have h : ∀ a ∈ all, ∀ b ∈ a.ancestors, ∀ c ∈ b.ancestors, c ∈ a.ancestors := by decide
  simp only [isA, List.contains_iff_mem] at hab hbc ⊢
  exact h a (mem_all a) b hab c hbc

end FaultClass

end Dissect
