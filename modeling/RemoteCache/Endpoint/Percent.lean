import RemoteCache.Text.Utf8

/-!
# Percent escapes

A percent sign and two hexadecimal digits stand for a byte; a percent sign without two digits stands for itself.
The bytes together are the UTF-8 form of a text.
-/

namespace RemoteCache.Percent

/-- The bytes that a text stands for. -/
def bytes : List Char → Bytes
  | [] => []
  | '%' :: a :: b :: rest =>
    match Hex.value? a, Hex.value? b with
    | some high, some low => UInt8.ofNat (16 * high + low) :: bytes rest
    | _, _ => Text.Utf8.encode ['%'] ++ bytes (a :: b :: rest)
  | c :: rest => Text.Utf8.encode [c] ++ bytes rest

def decode (text : List Char) : List Char := Text.Utf8.decode (bytes text)

end RemoteCache.Percent
