/-!
# Faults of files
-/

namespace DeviceBatch.Text

/-- Why a file cannot be used as a text. -/
inductive FileFault where
  | notFound
  | isDirectory
  /-- Its bytes are no UTF-8. -/
  | notText
  deriving DecidableEq, Repr

/-- The text of a fault. -/
def FileFault.message : FileFault → String
  | notFound => "No such file or directory (os error 2)"
  | isDirectory => "Is a directory (os error 21)"
  | notText => "stream did not contain valid UTF-8"

/-- The text with the given bytes in UTF-8, if they are the bytes of a text. -/
def ofBytes? (bytes : List UInt8) : Option String := String.fromUTF8? (ByteArray.mk bytes.toArray)

end DeviceBatch.Text
