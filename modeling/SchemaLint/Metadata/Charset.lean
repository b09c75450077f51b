import SchemaLint.Metadata.Error
import SchemaLint.Text.Basic

/-!
# Character sets and collations

The character sets of the server with their default collations.  The name of a collation begins
with the name of its character set, which ends at the first underscore.
-/

namespace SchemaLint
namespace Charset

/-- Character sets and their default collations. -/
def defaults : List (String × String) := [
  ("armscii8", "armscii8_general_ci"),
  ("ascii", "ascii_general_ci"),
  ("big5", "big5_chinese_ci"),
  ("binary", "binary"),
  ("cp1250", "cp1250_general_ci"),
  ("cp1251", "cp1251_general_ci"),
  ("cp1256", "cp1256_general_ci"),
  ("cp1257", "cp1257_general_ci"),
  ("cp850", "cp850_general_ci"),
  ("cp852", "cp852_general_ci"),
  ("cp866", "cp866_general_ci"),
  ("cp932", "cp932_japanese_ci"),
  ("dec8", "dec8_swedish_ci"),
  ("eucjpms", "eucjpms_japanese_ci"),
  ("euckr", "euckr_korean_ci"),
  ("gb18030", "gb18030_chinese_ci"),
  ("gb2312", "gb2312_chinese_ci"),
  ("gbk", "gbk_chinese_ci"),
  ("geostd8", "geostd8_general_ci"),
  ("greek", "greek_general_ci"),
  ("hebrew", "hebrew_general_ci"),
  ("hp8", "hp8_english_ci"),
  ("keybcs2", "keybcs2_general_ci"),
  ("koi8r", "koi8r_general_ci"),
  ("koi8u", "koi8u_general_ci"),
  ("latin1", "latin1_swedish_ci"),
  ("latin2", "latin2_general_ci"),
  ("latin5", "latin5_turkish_ci"),
  ("latin7", "latin7_general_ci"),
  ("macce", "macce_general_ci"),
  ("macroman", "macroman_general_ci"),
  ("sjis", "sjis_japanese_ci"),
  ("swe7", "swe7_swedish_ci"),
  ("tis620", "tis620_thai_ci"),
  ("ucs2", "ucs2_general_ci"),
  ("ujis", "ujis_japanese_ci"),
  ("utf16", "utf16_general_ci"),
  ("utf16le", "utf16le_general_ci"),
  ("utf32", "utf32_general_ci"),
  ("utf8", "utf8_general_ci"),
  ("utf8mb3", "utf8mb3_general_ci"),
  ("utf8mb4", "utf8mb4_0900_ai_ci")]

/-- The entry of a character set; its name may be in any case and between white space. -/
def find? (name : String) : Option (String × String) :=
  let name := Text.lower (Text.trim name)
  defaults.find? (·.1 == name)

/-- The default collation of a character set. -/
def defaultCollation (name : String) : Except MetadataError String :=
  match find? name with
  | some (_, collation) => .ok collation
  | none => .error (.unknownCharacterSet name)

/-- The part of a name before its first underscore. -/
def stem (name : String) : String :=
  String.ofList (name.toList.takeWhile (· != '_'))

/-- The character set of a collation. -/
def ofCollation (name : String) : Except MetadataError String :=
  let name := Text.lower (Text.trim name)
  match find? (stem name) with
  | some (charset, _) => .ok charset
  | none => .error (.unknownCollation name)

end Charset
end SchemaLint
