import TransferLifecycle.Csv.Symbol

set_option autoImplicit false

/- Written fields of a table. A field with a comma, a quote or a line break stands in quotes, and a
quote inside it is written twice; any other field is written as it is. -/
namespace TransferLifecycle.Csv

def needsQuotes (field : List UInt8) : Bool :=
  field.any fun b => b == comma || b == quote || isLineEnd b

/-- Bytes that are written together or not at all: a single one, or a doubled quote. -/
abbrev Chunk := List UInt8

def quotedByte (b : UInt8) : Chunk := if b = quote then [quote, quote] else [b]

def fieldChunks (field : List UInt8) : List Chunk :=
  if needsQuotes field then [quote] :: field.map quotedByte ++ [[quote]] else field.map ([·])

/-- A row of at least one field, ended by a line feed. -/
def rowChunks : List (List UInt8) → List Chunk
  | [] => [[lineFeed]]
  | [last] => fieldChunks last ++ [[lineFeed]]
  | field :: rest => fieldChunks field ++ [comma] :: rowChunks rest

end TransferLifecycle.Csv
