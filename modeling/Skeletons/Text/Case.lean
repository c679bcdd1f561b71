namespace Skeletons

/-- The lower-case form of a character, as far as it is ASCII. The only other character with an ASCII lower
    case is the Kelvin sign. -/
def lowered (c : Char) : Char := if c = '\u212a' then 'k' else c.toLower

def lowerCase (s : String) : String := String.ofList (s.toList.map lowered)

end Skeletons
