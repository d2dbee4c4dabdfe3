/-!
# Headers of images

The size of an image stands in the first bytes of its file: at a fixed place in a PNG file, and in
the first segment of a JPEG file that describes a frame.
-/

namespace Otui.ImageHeader

/-- The number that bytes say, the first byte counting most. -/
def number (bytes : List UInt8) : Nat := bytes.foldl (fun n b => 256 * n + b.toNat) 0

/-- The bytes that a PNG file starts with, up to the size of the image. -/
def pngStart : List UInt8 :=
  [0x89, 0x50, 0x4e, 0x47, 0x0d, 0x0a, 0x1a, 0x0a, 0x00, 0x00, 0x00, 0x0d, 0x49, 0x48, 0x44, 0x52]

/-- A number as four bytes. -/
def fourBytes (n : Nat) : List UInt8 :=
  [UInt8.ofNat (n >>> 24), UInt8.ofNat (n >>> 16), UInt8.ofNat (n >>> 8), UInt8.ofNat n]

/-- The first bytes of a PNG file with an image of a size. -/
def pngHeader (width height : Nat) : List UInt8 := pngStart ++ fourBytes width ++ fourBytes height

/-- The size of the image in a PNG file. -/
def pngSize? (bytes : List UInt8) : Option (Nat × Nat) :=
  if pngStart.isPrefixOf bytes && 24 ≤ bytes.length then
    let rest := bytes.drop 16
    some (number (rest.take 4), number ((rest.drop 4).take 4))
  else none

/-- Whether a segment of a JPEG file describes a frame. -/
def describesFrame (marker : UInt8) : Bool :=
  0xc0 ≤ marker && marker ≤ 0xcf && marker != 0xc4 && marker != 0xc8 && marker != 0xcc

/-- The size in the first segment that describes a frame. -/
def frameSize? (bytes : List UInt8) : Option (Nat × Nat) :=
  match bytes with
  | 0xff :: marker :: l :: l' :: rest =>
    if describesFrame marker then
      match rest with
      | _ :: h :: h' :: w :: w' :: _ => some (number [w, w'], number [h, h'])
      | _ => none
    else frameSize? (rest.drop (number [l, l'] - 2))
  | _ => none
  termination_by bytes.length
  decreasing_by simp only [List.length_cons, List.length_drop]; omega

/-- The size of the image in a JPEG file. -/
def jpegSize? : List UInt8 → Option (Nat × Nat)
  | 0xff :: 0xd8 :: rest => frameSize? rest
  | _ => none

/-- The size of the image in a file. -/
def size? (bytes : List UInt8) : Option (Nat × Nat) :=
  (pngSize? bytes).orElse fun _ => jpegSize? bytes

end Otui.ImageHeader
