/-!
# Reserved words

The words of the Puma language that cannot be names.  They are case-sensitive.  The two truth
values are among them although a scan never reports them as keywords: a rule of their own
recognises them first.

## Main definitions

* `keywords` — the reserved words in ascending order.
* `isKeyword` — whether a text is one of them.
-/

namespace TokenStream

/-- The reserved words, in ascending order. -/
def keywords : List String := [
    "and", "as", "base", "begin", "bin", "bool", "break", "catch", "char", "constant", "continue",
    "delegate", "else", "end", "enums", "error", "explicit", "false", "finalize", "fix128",
    "fix32", "fix64", "flt128", "flt32", "flt64", "for", "forall", "fstr", "functions", "get",
    "has", "hex", "if", "implicit", "in", "initialize", "int128", "int16", "int32", "int64",
    "int8", "internal", "is", "match", "module", "multiprocess", "multithread", "not", "number",
    "object", "oct", "operator", "optional", "or", "override", "private", "properties", "public",
    "readonly", "readwrite", "records", "repeat", "return", "self", "set", "start", "str",
    "trait", "true", "type", "uint128", "uint16", "uint32", "uint64", "uint8", "using", "value",
    "vstr", "when", "while", "with", "yield"]

/-- Whether a text is a reserved word. -/
def isKeyword (text : String) : Bool := keywords.contains text

end TokenStream
