/-!
# Access flags

Classes, fields and methods carry a word of access flags.  A mask is present
when any of its bits is set.
-/

namespace ClassLint

/-- The access flags of a class, a field or a method. -/
structure AccessFlags where
  bits : UInt16
  deriving DecidableEq, Repr

namespace AccessFlags

def publicMask : UInt16 := 0x0001
def privateMask : UInt16 := 0x0002
def protectedMask : UInt16 := 0x0004
def staticMask : UInt16 := 0x0008
def finalMask : UInt16 := 0x0010
def interfaceMask : UInt16 := 0x0200
def abstractMask : UInt16 := 0x0400
def syntheticMask : UInt16 := 0x1000

/-- Whether any bit of the mask is set. -/
def contains (flags : AccessFlags) (mask : UInt16) : Bool :=
  flags.bits &&& mask != 0

/-- The flags with the bits of the mask set as well. -/
def including (flags : AccessFlags) (mask : UInt16) : AccessFlags :=
  ⟨flags.bits ||| mask⟩

def isPublic (flags : AccessFlags) : Bool := flags.contains publicMask
def isPrivate (flags : AccessFlags) : Bool := flags.contains privateMask
def isProtected (flags : AccessFlags) : Bool := flags.contains protectedMask
def isStatic (flags : AccessFlags) : Bool := flags.contains staticMask
def isFinal (flags : AccessFlags) : Bool := flags.contains finalMask
def isInterface (flags : AccessFlags) : Bool := flags.contains interfaceMask
def isAbstract (flags : AccessFlags) : Bool := flags.contains abstractMask
def isSynthetic (flags : AccessFlags) : Bool := flags.contains syntheticMask

/-- Visible in its own package only: neither public, protected nor private. -/
def isPackagePrivate (flags : AccessFlags) : Bool :=
  !(flags.isPublic || flags.isProtected || flags.isPrivate)

end AccessFlags

end ClassLint
