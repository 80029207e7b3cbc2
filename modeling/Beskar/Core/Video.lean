import Beskar.Lib.Checked

/-!
# The Framebuffer Text Writer

Model of `FramebufferWriter` (`beskar-core/src/video/writer.rs`), the writer behind the
kernel's screen logger (`video::log::log`), which prints whatever a user process writes
to standard output (`Stdout::write` forwards the UTF-8 text of `sc_write`).

The cursor `(x, y)` is a pair of `u16`.  A printable character checks the right edge,
then the bottom edge (clearing the screen there), draws its raster at the cursor through
`write_pixel`, and advances `x`.  `'\n'` moves `y` down one line and `'\r'` resets `x`,
with no check at all.  All `u16` additions panic on overflow (`none`), as does an
out-of-range index into the pixel buffer.

The glyphs come from the `noto_sans_mono_bitmap` crate at `RasterHeight::Size20`: every
raster has `CHAR_HEIGHT = 20` rows of `CHAR_WIDTH` pixels (a monospace font), and
`CHAR_WIDTH` is the parameter `charWidth`.

## Main results

- `writeChar_pixel_bounds`, `writeStr_pixel_bounds`: on a framebuffer with room for one
  glyph, every pixel drawn lies inside `width × height`, whatever the text.
- `pixelsFit_drawn`, `drawChar_eq_some`: on a buffer of at least `stride * height` pixels
  the index check of `write_pixel` never fails, so only a `u16` overflow can panic.
- `writeStr_newlines`: a run of `k` newlines moves the cursor down `22 k` pixels, and
  panics once that leaves the `u16` range.
-/

namespace Beskar.Video

open Beskar.Lib

-- `CHAR_HEIGHT` (`RasterHeight::Size20`), `LINE_SPACING`, `LETTER_SPACING`, `BORDER_PADDING`
def charHeight : Nat := 20
def lineSpacing : Nat := 2
def letterSpacing : Nat := 0
def borderPadding : Nat := 3

/-- The fields of `video::Info` the writer reads (`u16` each); the byte size, pixel
format and bytes per pixel only choose colours. -/
structure Info where
  width : Fin (2 ^ 16)
  height : Fin (2 ^ 16)
  stride : Fin (2 ^ 16)

/-- `FramebufferWriter`: the framebuffer layout and the cursor.  The colour is left out. -/
structure FramebufferWriter where
  info : Info
  x : Fin (2 ^ 16)
  y : Fin (2 ^ 16)

/-- What a call does to the pixel buffer. -/
inductive Effect where
  /-- `buffer.fill(Pixel::BLACK)` from `clear_screen`. -/
  | clear
  /-- `write_pixel` at column `col`, row `row`. -/
  | pixel (col row : Nat)
deriving DecidableEq, Repr

namespace FramebufferWriter

/-- `FramebufferWriter::new`: the cursor starts at `(BORDER_PADDING, BORDER_PADDING)`. -/
def new (info : Info) : FramebufferWriter := ⟨info, ⟨3, by norm_num⟩, ⟨3, by norm_num⟩⟩

def softClear (fw : FramebufferWriter) : FramebufferWriter :=
  { fw with x := ⟨3, by norm_num⟩, y := ⟨3, by norm_num⟩ }

/-- `clear_screen`: a soft clear, then the whole buffer is filled. -/
def clearScreen (fw : FramebufferWriter) : FramebufferWriter × List Effect :=
  (softClear fw, [.clear])

def carriageReturn (fw : FramebufferWriter) : FramebufferWriter :=
  { fw with x := ⟨3, by norm_num⟩ }

/-- `newline`: `self.y += CHAR_HEIGHT + LINE_SPACING`, then a carriage return. -/
def newline (fw : FramebufferWriter) : Option FramebufferWriter :=
  (addFin fw.y (charHeight + lineSpacing)).map fun y => carriageReturn { fw with y := y }

/-- The pixels of one raster drawn at `(x, y)`: row `v`, column `u`, in the order of the
two nested loops of `write_char`. -/
def rasterPixels (charWidth x y : Nat) : List Effect :=
  (List.range charHeight).flatMap fun v => (List.range charWidth).map fun u => .pixel (x + u) (y + v)

/-- `write_pixel` indexes the buffer at `y * stride + x`, which panics unless every pixel
drawn has an index below the buffer length. -/
def pixelsFit (stride bufferLen : Nat) (eff : List Effect) : Bool :=
  eff.all fun
    | .pixel col row => row * stride + col < bufferLen
    | .clear => true

-- `if self.x + CHAR_WIDTH + BORDER_PADDING >= self.info.width() { self.newline() }`
def wrapRight (charWidth : Nat) (fw : FramebufferWriter) : Option FramebufferWriter := do
  let right ← addFin fw.x (charWidth + borderPadding)
  if fw.info.width.val ≤ right.val then newline fw else some fw

-- `if self.y + CHAR_HEIGHT + LINE_SPACING + BORDER_PADDING >= self.info.height() {
--     self.clear_screen(buffer, Pixel::BLACK) }`
def wrapBottom (fw : FramebufferWriter) : Option (FramebufferWriter × List Effect) := do
  let bottom ← addFin fw.y (charHeight + lineSpacing + borderPadding)
  some (if fw.info.height.val ≤ bottom.val then clearScreen fw else (fw, []))

/-- The arm of `write_char` for a character other than `'\n'` and `'\r'`. -/
def drawChar (charWidth bufferLen : Nat) (fw : FramebufferWriter) :
    Option (FramebufferWriter × List Effect) := do
  let fw₁ ← wrapRight charWidth fw
  let (fw₂, cleared) ← wrapBottom fw₁
  let drawn := rasterPixels charWidth fw₂.x.val fw₂.y.val
  if pixelsFit fw₂.info.stride.val bufferLen drawn then
    -- `self.x += u16::try_from(rasterized_char.width()).unwrap() + LETTER_SPACING`
    let x ← addFin fw₂.x (charWidth + letterSpacing)
    some ({ fw₂ with x := x }, cleared ++ drawn)
  else none

/-- `write_char` on a buffer of `bufferLen` pixels: the new writer and what was drawn. -/
def writeChar (charWidth bufferLen : Nat) (fw : FramebufferWriter) (c : Char) :
    Option (FramebufferWriter × List Effect) :=
  if c = '\n' then (newline fw).map (·, [])
  else if c = '\r' then some (carriageReturn fw, [])
  else drawChar charWidth bufferLen fw

/-- `write_str`: `write_char` for every character, in order. -/
def writeStr (charWidth bufferLen : Nat) (fw : FramebufferWriter) :
    List Char → Option (FramebufferWriter × List Effect)
  | [] => some (fw, [])
  | c :: cs => do
    let (fw₁, e₁) ← writeChar charWidth bufferLen fw c
    let (fw₂, e₂) ← writeStr charWidth bufferLen fw₁ cs
    some (fw₂, e₁ ++ e₂)

@[simp] theorem softClear_info (fw : FramebufferWriter) : fw.softClear.info = fw.info := rfl
@[simp] theorem softClear_x (fw : FramebufferWriter) : fw.softClear.x.val = 3 := rfl
@[simp] theorem softClear_y (fw : FramebufferWriter) : fw.softClear.y.val = 3 := rfl
@[simp] theorem carriageReturn_info (fw : FramebufferWriter) :
    fw.carriageReturn.info = fw.info := rfl
@[simp] theorem carriageReturn_x (fw : FramebufferWriter) : fw.carriageReturn.x.val = 3 := rfl
@[simp] theorem carriageReturn_y (fw : FramebufferWriter) : fw.carriageReturn.y = fw.y := rfl

theorem newline_eq (fw : FramebufferWriter) :
    fw.newline = if h : fw.y.val + 22 < 2 ^ 16 then
      some ⟨fw.info, ⟨3, by norm_num⟩, ⟨fw.y.val + 22, h⟩⟩ else none := by
  unfold newline addFin charHeight lineSpacing
  by_cases h : fw.y.val + 22 < 2 ^ 16
  · rw [dif_pos h, dif_pos h]
    rfl
  · rw [dif_neg h, dif_neg h]
    rfl

theorem newline_eq_some {fw fw' : FramebufferWriter} (h : fw.newline = some fw') :
    fw'.info = fw.info ∧ fw'.x.val = 3 ∧ fw'.y.val = fw.y.val + 22 := by
  rw [newline_eq] at h
  split at h
  · cases h
    exact ⟨rfl, rfl, rfl⟩
  · cases h

/-- `write_str` on `'\n' :: cs` is a newline followed by the rest, which draws nothing more
than the rest. -/
theorem writeStr_newline_cons (charWidth bufferLen : Nat) (fw : FramebufferWriter)
    (cs : List Char) :
    writeStr charWidth bufferLen fw ('\n' :: cs) =
      fw.newline.bind fun fw₁ => writeStr charWidth bufferLen fw₁ cs := by
  simp only [writeStr, writeChar, if_pos, Option.bind_eq_bind]
  cases fw.newline with
  | none => rfl
  | some fw₁ =>
    simp only [Option.map_some, Option.bind_some, List.nil_append]
    cases writeStr charWidth bufferLen fw₁ cs <;> rfl

/-! ## §1 Pixels Stay on Screen and in the Buffer -/

/-- The layout the writer is meant for: room for one glyph between the borders, and a
stride covering the width. -/
structure Roomy (charWidth : Nat) (info : Info) : Prop where
  width_gt : charWidth + 2 * borderPadding < info.width.val
  height_gt : charHeight + lineSpacing + 2 * borderPadding < info.height.val
  stride_ge : info.width.val ≤ info.stride.val

theorem mem_rasterPixels {charWidth x y col row : Nat}
    (h : Effect.pixel col row ∈ rasterPixels charWidth x y) :
    x ≤ col ∧ col < x + charWidth ∧ y ≤ row ∧ row < y + charHeight := by
  simp only [rasterPixels, List.mem_flatMap, List.mem_range, List.mem_map,
    Effect.pixel.injEq] at h
  obtain ⟨v, hv, u, hu, rfl, rfl⟩ := h
  omega

/-- A pixel inside `width × height` has an index below `stride * height`. -/
theorem pixel_index_lt {stride width height col row : Nat} (hw : width ≤ stride)
    (hcol : col < width) (hrow : row < height) : row * stride + col < stride * height := by
  calc row * stride + col < row * stride + stride := by omega
    _ = (row + 1) * stride := by ring
    _ ≤ height * stride := Nat.mul_le_mul_right _ hrow
    _ = stride * height := Nat.mul_comm _ _

/-- After the right-edge check a glyph fits before the right border. -/
theorem wrapRight_spec {charWidth : Nat} {fw fw₁ : FramebufferWriter}
    (hw : charWidth + 2 * borderPadding < fw.info.width.val)
    (h : wrapRight charWidth fw = some fw₁) :
    fw₁.info = fw.info ∧ fw₁.x.val + charWidth < fw.info.width.val := by
  simp only [wrapRight, Option.bind_eq_bind, Option.bind_eq_some_iff] at h
  obtain ⟨right, hright, h⟩ := h
  obtain ⟨-, hrightv⟩ := addFin_eq_some.mp hright
  split at h
  · -- the line wrapped: the cursor is back at the left border
    obtain ⟨hinfo, hx, -⟩ := newline_eq_some h
    simp only [borderPadding] at hw
    exact ⟨hinfo, by omega⟩
  · -- no wrap: `x + CHAR_WIDTH + BORDER_PADDING < width`
    cases h
    simp only [borderPadding] at hrightv
    exact ⟨rfl, by omega⟩

/-- After the bottom-edge check a glyph fits above the bottom border, the cursor column
is either kept or reset to the left border, and nothing but a clear was emitted. -/
theorem wrapBottom_spec {fw fw₂ : FramebufferWriter} {cleared : List Effect}
    (hh : charHeight + lineSpacing + 2 * borderPadding < fw.info.height.val)
    (h : wrapBottom fw = some (fw₂, cleared)) :
    fw₂.info = fw.info ∧ (fw₂.x = fw.x ∨ fw₂.x.val = 3) ∧
      fw₂.y.val + charHeight < fw.info.height.val ∧ ∀ col row, .pixel col row ∉ cleared := by
  simp only [wrapBottom, Option.bind_eq_bind, Option.bind_eq_some_iff, Option.some.injEq] at h
  obtain ⟨bottom, hbottom, h⟩ := h
  obtain ⟨-, hbottomv⟩ := addFin_eq_some.mp hbottom
  simp only [charHeight, lineSpacing, borderPadding] at hh hbottomv ⊢
  split at h
  · -- the screen was cleared: the cursor is back in the top left corner
    cases h
    exact ⟨rfl, .inr rfl, by simp only [softClear_y]; omega, by simp⟩
  · cases h
    exact ⟨rfl, .inl rfl, by omega, by simp⟩

/-- The raster drawn after both edge checks lies inside `width × height`. -/
theorem drawn_pixel_bounds {charWidth width height col row : Nat} {fw₁ fw₂ : FramebufferWriter}
    (hw : charWidth + 2 * borderPadding < width) (hx : fw₁.x.val + charWidth < width)
    (hx₂ : fw₂.x = fw₁.x ∨ fw₂.x.val = 3) (hy₂ : fw₂.y.val + charHeight < height)
    (hmem : Effect.pixel col row ∈ rasterPixels charWidth fw₂.x.val fw₂.y.val) :
    col < width ∧ row < height := by
  obtain ⟨-, hcol, -, hrow⟩ := mem_rasterPixels hmem
  simp only [borderPadding] at hw
  rcases hx₂ with hx₂ | hx₂
  · rw [hx₂] at hcol
    omega
  · omega

/-- **One character draws on screen.**  Whether the right edge wraps the line and whether
the bottom edge clears the screen, the raster lands inside `width × height`. -/
theorem writeChar_pixel_bounds {charWidth bufferLen : Nat} {fw fw' : FramebufferWriter}
    {c : Char} {eff : List Effect} (hroomy : Roomy charWidth fw.info)
    (h : writeChar charWidth bufferLen fw c = some (fw', eff)) :
    fw'.info = fw.info ∧
      ∀ col row, Effect.pixel col row ∈ eff → col < fw.info.width.val ∧ row < fw.info.height.val := by
  unfold writeChar at h
  split at h
  · -- `'\n'` draws nothing
    obtain ⟨fw₁, hnl, hpair⟩ := Option.map_eq_some_iff.mp h
    cases hpair
    exact ⟨(newline_eq_some hnl).1, by simp⟩
  split at h
  · -- `'\r'` draws nothing
    cases h
    exact ⟨rfl, by simp⟩
  -- a printable character: right edge, bottom edge, then the raster
  simp only [drawChar, Option.bind_eq_bind, Option.bind_eq_some_iff] at h
  obtain ⟨fw₁, h₁, ⟨fw₂, cleared⟩, h₂, h⟩ := h
  obtain ⟨hinfo₁, hx₁⟩ := wrapRight_spec hroomy.width_gt h₁
  obtain ⟨hinfo₂, hx₂, hy₂, hcleared⟩ := wrapBottom_spec (hinfo₁ ▸ hroomy.height_gt) h₂
  split at h
  · simp only [Option.bind_eq_some_iff, Option.some.injEq, Prod.mk.injEq] at h
    obtain ⟨x, -, rfl, rfl⟩ := h
    refine ⟨hinfo₂.trans hinfo₁, ?_⟩
    intro col row hmem
    rcases List.mem_append.mp hmem with hm | hm
    · exact absurd hm (hcleared col row)
    · rw [hinfo₁] at hy₂
      exact drawn_pixel_bounds hroomy.width_gt hx₁ hx₂ hy₂ hm
  · cases h

/-- **The index check of `write_pixel` never fails** on a buffer of at least
`stride * height` pixels: after both edge checks every pixel of the raster has an index
inside the buffer. -/
theorem pixelsFit_drawn {charWidth bufferLen : Nat} {fw fw₁ fw₂ : FramebufferWriter}
    {cleared : List Effect} (hroomy : Roomy charWidth fw.info)
    (hlen : fw.info.stride.val * fw.info.height.val ≤ bufferLen)
    (h₁ : wrapRight charWidth fw = some fw₁) (h₂ : wrapBottom fw₁ = some (fw₂, cleared)) :
    pixelsFit fw₂.info.stride.val bufferLen (rasterPixels charWidth fw₂.x.val fw₂.y.val) = true := by
  obtain ⟨hinfo₁, hx₁⟩ := wrapRight_spec hroomy.width_gt h₁
  obtain ⟨hinfo₂, hx₂, hy₂, -⟩ := wrapBottom_spec (hinfo₁ ▸ hroomy.height_gt) h₂
  rw [hinfo₁] at hy₂
  rw [hinfo₂, hinfo₁]
  simp only [pixelsFit, List.all_eq_true]
  intro e he
  cases e with
  | clear => rfl
  | pixel col row =>
    obtain ⟨hcol, hrow⟩ := drawn_pixel_bounds hroomy.width_gt hx₁ hx₂ hy₂ he
    simp only [decide_eq_true_eq]
    exact lt_of_lt_of_le (pixel_index_lt hroomy.stride_ge hcol hrow) hlen

/-- Once both edge checks pass, a printable character is drawn and the cursor advances by
one glyph: neither `write_pixel` nor the final `self.x +=` can panic. -/
theorem drawChar_eq_some {charWidth bufferLen : Nat} {fw fw₁ fw₂ : FramebufferWriter}
    {cleared : List Effect} (hroomy : Roomy charWidth fw.info)
    (hlen : fw.info.stride.val * fw.info.height.val ≤ bufferLen)
    (h₁ : wrapRight charWidth fw = some fw₁) (h₂ : wrapBottom fw₁ = some (fw₂, cleared)) :
    ∃ fw', drawChar charWidth bufferLen fw =
        some (fw', cleared ++ rasterPixels charWidth fw₂.x.val fw₂.y.val) ∧
      fw'.info = fw.info ∧ fw'.x.val = fw₂.x.val + charWidth ∧ fw'.y = fw₂.y := by
  obtain ⟨hinfo₁, hx₁⟩ := wrapRight_spec hroomy.width_gt h₁
  obtain ⟨hinfo₂, hx₂, -, -⟩ := wrapBottom_spec (hinfo₁ ▸ hroomy.height_gt) h₂
  -- the glyph ends before the right border, so the new column is a `u16`
  have hfit : fw₂.x.val + (charWidth + letterSpacing) < 2 ^ 16 := by
    have hwidth := fw.info.width.isLt
    have hw := hroomy.width_gt
    simp only [letterSpacing, borderPadding] at hw ⊢
    rcases hx₂ with hx₂ | hx₂
    · rw [hx₂]; omega
    · omega
  refine ⟨{ fw₂ with x := ⟨fw₂.x.val + (charWidth + letterSpacing), hfit⟩ }, ?_,
    hinfo₂.trans hinfo₁, rfl, rfl⟩
  have hadd : addFin fw₂.x (charWidth + letterSpacing) = some ⟨_, hfit⟩ :=
    addFin_eq_some.mpr ⟨hfit, rfl⟩
  simp only [drawChar, h₁, h₂, Option.bind_eq_bind, Option.bind_some,
    pixelsFit_drawn hroomy hlen h₁ h₂, if_true, hadd]

/-- **Every pixel of every text lands on screen** (the run lemma of
`writeChar_pixel_bounds`). -/
theorem writeStr_pixel_bounds {charWidth bufferLen : Nat} {fw fw' : FramebufferWriter}
    {s : List Char} {eff : List Effect} (hroomy : Roomy charWidth fw.info)
    (h : writeStr charWidth bufferLen fw s = some (fw', eff)) :
    ∀ col row, Effect.pixel col row ∈ eff → col < fw.info.width.val ∧ row < fw.info.height.val := by
  -- induction on the text; the layout `info` is the invariant the steps keep
  induction s generalizing fw fw' eff with
  | nil =>
    cases h
    simp
  | cons c cs ih =>
    simp only [writeStr, Option.bind_eq_bind, Option.bind_eq_some_iff] at h
    obtain ⟨⟨fw₁, e₁⟩, h₁, ⟨fw₂, e₂⟩, h₂, hpair⟩ := h
    cases hpair
    obtain ⟨hinfo, hbound₁⟩ := writeChar_pixel_bounds hroomy h₁
    have hbound₂ := ih (hinfo ▸ hroomy) h₂
    intro col row hmem
    rcases List.mem_append.mp hmem with hm | hm
    · exact hbound₁ col row hm
    · rw [← hinfo]
      exact hbound₂ col row hm

/-! ## §2 Runs of Newlines -/

/-- **`k + 1` newlines move the cursor down `22 (k + 1)` pixels**, as long as that stays a
`u16`, and panic otherwise: `newline` adds to `y` with no check against the height. -/
theorem writeStr_newlines (charWidth bufferLen : Nat) (fw : FramebufferWriter) (k : Nat) :
    writeStr charWidth bufferLen fw (List.replicate (k + 1) '\n') =
      if h : fw.y.val + 22 * (k + 1) < 2 ^ 16 then
        some (⟨fw.info, ⟨3, by norm_num⟩, ⟨fw.y.val + 22 * (k + 1), h⟩⟩, [])
      else none := by
  -- induction on the number of newlines after the first
  induction k generalizing fw with
  | zero =>
    rw [List.replicate, writeStr_newline_cons, newline_eq]
    by_cases h : fw.y.val + 22 < 2 ^ 16
    · rw [dif_pos h, dif_pos (by omega)]
      rfl
    · rw [dif_neg h, dif_neg (by omega)]
      rfl
  | succ k ih =>
    rw [List.replicate, writeStr_newline_cons, newline_eq]
    by_cases h : fw.y.val + 22 < 2 ^ 16
    · rw [dif_pos h, Option.bind_some, ih]
      by_cases hk : fw.y.val + 22 + 22 * (k + 1) < 2 ^ 16
      · rw [dif_pos hk, dif_pos (by omega)]
        congr 3
        exact Fin.ext (by simp only; omega)
      · rw [dif_neg hk, dif_neg (by omega)]
    · -- the first newline already overflows
      rw [dif_neg h, dif_neg (by omega)]
      rfl

/-- From `FramebufferWriter::new`, 2979 newlines overflow the `u16` cursor and panic,
whatever the font, the layout and the buffer. -/
theorem write_str_newlines_panic (charWidth bufferLen : Nat) (info : Info) :
    writeStr charWidth bufferLen (new info) (List.replicate 2979 '\n') = none := by
  rw [writeStr_newlines charWidth bufferLen (new info) 2978, dif_neg]
  -- the cursor starts at row 3, and 3 + 22 * 2979 = 65541 is past the u16 range
  show ¬ 3 + 22 * (2978 + 1) < 2 ^ 16
  omega

end FramebufferWriter

end Beskar.Video
