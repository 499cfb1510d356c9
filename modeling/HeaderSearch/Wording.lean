import HeaderSearch.FileSystem

/-!
# Wording of outer causes

Some failures have a cause outside of this library: the file system refuses to read, or a text is
not what it should be. How such causes are worded is a matter of the surroundings, so every message
that ends in one takes the wording as an argument.
-/

namespace HeaderSearch

/-- How causes outside the library are worded. -/
structure Wording where
  /-- The words for a text that cannot be read. -/
  unreadable : ReadError → String
  /-- The words for a text that is not a document of the expected form. -/
  malformed : String

namespace Wording

/-- Plain words for each cause. -/
def plain : Wording where
  unreadable
    | .notFound => "no such file or directory"
    | .notADirectory => "not a directory"
    | .isADirectory => "is a directory"
    | .linkLoop => "too many levels of symbolic links"
    | .nullInPath => "the path holds a null character"
    | .nameTooLong => "file name too long"
    | .notText => "the content is not UTF-8 text"
    | .other words => words
  malformed := "not a document of the expected form"

end Wording

end HeaderSearch
