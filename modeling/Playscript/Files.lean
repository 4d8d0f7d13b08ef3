/-! Files as a program sees them. The monad is the identity where the files are known in advance. -/
namespace Playscript

structure Files (m : Type → Type) where
  /-- The text of a file, or why it cannot be read. -/
  read : String → m (Except String String)
  isFile : String → m Bool
  isDirectory : String → m Bool

def Files.entry (directory name : String) : String :=
  directory ++ "/" ++ name

end Playscript
