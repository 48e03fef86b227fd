/-! Why a byte string is not read as a zip archive. -/
namespace JarCensus.Zip

inductive ZipError where
  | badHeader
  | noEndRecord
  | severalDisks
  | badDirectoryBounds
  | badDirectoryHeader
  | badLocalHeader
  | encrypted
  | unknownMethod
  /-- A record reaches past the end of the archive. -/
  | unexpectedEnd
  /-- For readers that know more of the format, and more that can be wrong with it. -/
  | other (message : String)
  deriving DecidableEq, Repr

/-- The error and what caused it. A record that ends too early is reported as an error that has
itself for a cause. -/
def ZipError.chain : ZipError → List String
  | .badHeader => ["invalid Zip archive: Invalid zip header"]
  | .noEndRecord => ["invalid Zip archive: Could not find central directory end"]
  | .severalDisks =>
    ["unsupported Zip archive: Support for multi-disk files is not implemented"]
  | .badDirectoryBounds => ["invalid Zip archive: Invalid central directory size or offset"]
  | .badDirectoryHeader => ["invalid Zip archive: Invalid Central Directory header"]
  | .badLocalHeader => ["invalid Zip archive: Invalid local file header"]
  | .encrypted => ["unsupported Zip archive: Password required to decrypt file"]
  | .unknownMethod => ["unsupported Zip archive: Compression method not supported"]
  | .unexpectedEnd => ["failed to fill whole buffer", "failed to fill whole buffer"]
  | .other message => [message]

end JarCensus.Zip
