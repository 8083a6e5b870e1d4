set_option autoImplicit false

/- The four bytes with a meaning in a table. All of them are ASCII, so none is part of the encoding
of another character. -/
namespace TransferLifecycle.Csv

def comma : UInt8 := 0x2C
def quote : UInt8 := 0x22
def carriageReturn : UInt8 := 0x0D
def lineFeed : UInt8 := 0x0A

def isLineEnd (b : UInt8) : Bool := b == carriageReturn || b == lineFeed

end TransferLifecycle.Csv
