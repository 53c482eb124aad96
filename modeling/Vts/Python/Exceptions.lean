/-!
# Python exceptions

The outcomes other than a returned value. The classes are those of the Python 2
interpreter that the modelled code can raise, and the three classes the code
defines itself. Texts of messages are kept where the code gives one; the second
argument of `elfError` holds the bytes that the message shows, that of `vtableError`
the numbers.

`unfinished` is no Python exception: it stands for a loop whose fuel ran out, and
a model with such a loop says when it can be the result. Memory is taken to be large
enough, but for the lists that `range` makes of sizes found in ELF files, which can be
too long for any machine (`Vts.Python.Host`).
-/

namespace Vts.Python

/-- An exception, or a run that did not end. -/
inductive Exception where
  | fileFormatError (message : String)
  | elfError (message : String) (shown : List UInt8)
  | vtableError (message : String) (shown : List Nat)
  | valueError (message : String)
  | indexError
  | keyError
  | attributeError
  | structError
  | overflowError
  | zeroDivisionError
  | memoryError
  | ioError
  | unfinished
deriving DecidableEq

end Vts.Python
