/-
VortexOS.Dev.Framebuffer — `kernel/framebuffer.cpp`, for a framebuffer that
`framebuffer_init` was given.

Pixels are clipped (`pixelAt_putPixels`), but the corner of a rectangle wraps
around, a tab leaves the screen, and the font is indexed by the character
although it starts at the space. `fb_clear` is not modelled.
-/
import Mathlib

namespace VortexOS.Dev

open Function

/-! ## The screen -/

/-- The arguments of `framebuffer_init`, with room for every row. -/
structure Geometry where
  width : Nat
  height : Nat
  pitch : Nat
  bpp : Nat
  words : width < 2 ^ 32 ∧ height < 2 ^ 32 ∧ pitch < 2 ^ 32
  depth : bpp = 24 ∨ bpp = 32
  row : width * bpp / 8 ≤ pitch
  small : pitch * height < 2 ^ 32

/-- The bytes from `kFbBase` on, and the cursor. -/
structure Screen where
  mem : Nat → BitVec 8
  kFbCursorX : Nat
  kFbCursorY : Nat

def Screen.store (s : Screen) (i : Nat) (b : BitVec 8) : Screen :=
  { s with mem := update s.mem i b }

variable (g : Geometry)

def putPixel (x y : Nat) (color : BitVec 32) (s : Screen) : Screen :=
  if x ≥ g.width ∨ y ≥ g.height then s
  else
    let ptr := y * g.pitch % 2 ^ 32 + x * (g.bpp / 8) % 2 ^ 32
    ((s.store ptr (color.setWidth 8)).store (ptr + 1) ((color >>> 8).setWidth 8)).store
      (ptr + 2) ((color >>> 16).setWidth 8)

/-- One pixel after the other, with their columns, rows and colours. -/
def putPixels (s : Screen) (pixels : List (Nat × Nat × BitVec 32)) : Screen :=
  pixels.foldl (fun s p => putPixel g p.1 p.2.1 p.2.2 s) s

def fbFillRect (x y w h : Nat) (color : BitVec 32) (s : Screen) : Screen :=
  let xEnd := min ((x + w) % 2 ^ 32) g.width
  let yEnd := min ((y + h) % 2 ^ 32) g.height
  putPixels g s <| (List.range' y (yEnd - y)).flatMap fun row =>
    (List.range' x (xEnd - x)).map fun col => (col, row, color)

def scrollBytes (lines : Nat) : Nat := lines * g.pitch % 2 ^ 32

def remainingBytes (lines : Nat) : Nat := (g.height + 2 ^ 32 - lines) % 2 ^ 32 * g.pitch % 2 ^ 32

def moveByte (scroll : Nat) (s : Screen) (i : Nat) : Screen :=
  s.store i (s.mem ((i + scroll) % 2 ^ 32))

def clearByte (remaining : Nat) (s : Screen) (i : Nat) :
    Screen := s.store ((remaining + i) % 2 ^ 32) 0

def fbScroll (lines : Nat) (s : Screen) : Screen :=
  if lines = 0 then s
  else (List.range (scrollBytes g lines)).foldl (clearByte (remainingBytes g lines))
    ((List.range (remainingBytes g lines)).foldl (moveByte (scrollBytes g lines)) s)

/-! ## Characters -/

/-- The 16 bytes of each glyph, the first row highest. Rows 13 to 15 of all
of them are 0, and so are the glyphs from 95 on. -/
def kFont8x16 (i : Nat) : BitVec 128 := List.getD
  [0, 0x183C3C3C18181800181800, 0x666666660000000000000000, 0x36367F36367F3636000000,
    0x81E28281C0A0A3C08000000, 0x6192640813244300000000, 0x1C22221C29464639000000,
    0x181818180000000000000000, 0x40810101010100804000000, 0x201008080808081020000000,
    0x82A1C2A08000000000000, 0x808087F08080800000000, 0x18180810, 0x7F000000000000, 0x18180000,
    0x10204081020408000000000, 0x3C42464A5262423C000000, 0x81828080808083E000000,
    0x3C4202040810207E000000, 0x3C42021C0202423C000000, 0x40C1424447E0404000000,
    0x7E40407C0202423C000000, 0x1C20407C4242423C000000, 0x7E02040810101010000000,
    0x3C42423C4242423C000000, 0x3C4242423E020438000000, 0x18180000001818000000,
    0x18180000001818081000, 0x20408102010080402000000, 0x7E00007E0000000000,
    0x402010080408102040000000, 0x3C4202040808000808000000, 0x3C42424E524E403C000000,
    0x182442427E424242000000, 0x7C42427C4242427C000000, 0x3C4240404040423C000000,
    0x7844424242424478000000, 0x7E40407C4040407E000000, 0x7E40407C40404040000000,
    0x3C4240404E42423C000000, 0x4242427E42424242000000, 0x3E0808080808083E000000,
    0x1F04040404044438000000, 0x4244485060504844000000, 0x404040404040407E000000,
    0x42665A5A42424242000000, 0x4262524A46424242000000, 0x3C4242424242423C000000,
    0x7C4242427C404040000000, 0x3C424242424A443A000000, 0x7C42427C48444242000000,
    0x3C42403C0202423C000000, 0x7F08080808080808000000, 0x424242424242423C000000,
    0x4242424242422418000000, 0x424242425A5A6642000000, 0x4242241818244242000000,
    0x4122140808080808000000, 0x7E0204081020407E000000, 0x1E101010101010101E000000,
    0x804020100804020100000000, 0x780808080808080878000000, 0x81422000000000000000000, 0xFF0000, 0,
    0x3C02023E4242463A000000, 0x4040407C4242427C000000, 0x3C4240404040423C000000,
    0x202023E4242423E000000, 0x3C42427E4040423C000000, 0xE10107E10101010000000,
    0x3E4242423E02023C000000, 0x4040407C42424242000000, 0x80000380808083E000000,
    0x400001C04040404443800, 0x4040424448704844000000, 0x380808080808083E000000,
    0x42665A5A42424242000000, 0x4262524A46424242000000, 0x3C4242424242423C000000,
    0x7C4242427C404040000000, 0x3E4242423E020202000000, 0x5C62424040404040000000,
    0x3C42403C0242423C000000, 0x10107E101010100E000000, 0x424242424242463A000000,
    0x4242424242422418000000, 0x424242425A5A6642000000, 0x4242241818244242000000,
    0x42424242423E023C000000, 0x7E0204081020407E000000, 0xE101010201010100E000000,
    0x80808080008080808000000, 0x700808080408080870000000, 0] i 0 <<< 24

def glyphRow (i row : Nat) : BitVec 8 := (kFont8x16 i).extractLsb' (120 - 8 * row) 8

/-- White on black. -/
def glyphColor (i row col : Nat) : BitVec 32 :=
  if glyphRow i row &&& 0x80 >>> col ≠ 0 then 0xFFFFFF else 0x000000

/-- The loop of `fb_putchar` that draws. -/
def drawGlyph (ch : BitVec 8) (s : Screen) : Screen :=
  putPixels g s <| (List.range 16).flatMap fun row => (List.range 8).map fun col =>
    ((s.kFbCursorX + col) % 2 ^ 32, (s.kFbCursorY + row) % 2 ^ 32, glyphColor ch.toNat row col)

/-- The cursor goes to the start of the next line. -/
def newLine (s : Screen) : Screen :=
  let s := { s with kFbCursorX := 0, kFbCursorY := (s.kFbCursorY + 16) % 2 ^ 32 }
  if (s.kFbCursorY + 16) % 2 ^ 32 > g.height then
    { fbScroll g 16 s with kFbCursorY := (g.height + 2 ^ 32 - 16) % 2 ^ 32 }
  else s

/-- The cursor goes behind the character. -/
def advance (s : Screen) : Screen :=
  let s := { s with kFbCursorX := (s.kFbCursorX + 8) % 2 ^ 32 }
  if (s.kFbCursorX + 8) % 2 ^ 32 > g.width then newLine g s else s

def fbPutchar (s : Screen) (ch : BitVec 8) : Screen :=
  if ch = 0x0A then newLine g s
  else if ch = 0x0D then { s with kFbCursorX := 0 }
  else if ch = 0x09 then { s with kFbCursorX := (s.kFbCursorX + 32) % 2 ^ 32 / 8 * 8 }
  else advance g (drawGlyph g (if ch < 0x20 ∨ ch > 0x7E then 0x20 else ch) s)

/-- The string is given without its end. -/
def fbWrite (s : Screen) (str : List (BitVec 8)) : Screen := str.foldl (fbPutchar g) s

/-! ## Pixels -/

def pixelAddr (x y : Nat) : Nat := y * g.pitch + x * (g.bpp / 8)

def pixelAt (s : Screen) (x y : Nat) : BitVec 8 × BitVec 8 × BitVec 8 :=
  (s.mem (pixelAddr g x y), s.mem (pixelAddr g x y + 1), s.mem (pixelAddr g x y + 2))

def rgb (color : BitVec 32) : BitVec 8 × BitVec 8 × BitVec 8 :=
  (color.setWidth 8, (color >>> 8).setWidth 8, (color >>> 16).setWidth 8)

variable {g} {s : Screen} {x y x' y' lines : Nat} {color : BitVec 32} {ch : BitVec 8}

section

variable (hx : x < g.width)
include hx

lemma pixel_size : 3 ≤ g.bpp / 8 ∧ (x + 1) * (g.bpp / 8) ≤ g.pitch := by
  have hrow := g.row
  rcases g.depth with h | h
  · rw [h] at hrow ⊢
    omega
  · rw [h] at hrow ⊢
    omega

lemma pixelAddr_lt (hy : y < y') : pixelAddr g x y + 3 ≤ y' * g.pitch := by
  obtain ⟨hthree, hpitch⟩ := pixel_size hx
  have hrow := Nat.mul_le_mul_right g.pitch hy
  rw [Nat.succ_mul] at hrow
  rw [Nat.succ_mul] at hpitch
  unfold pixelAddr
  omega

lemma pixelAddr_apart (hx' : x' < g.width) (hne : ¬ (x = x' ∧ y = y')) :
    pixelAddr g x y + 3 ≤ pixelAddr g x' y' ∨ pixelAddr g x' y' + 3 ≤ pixelAddr g x y := by
  rcases Nat.lt_trichotomy y y' with hlt | rfl | hlt
  · exact Or.inl (Nat.le_add_right_of_le (pixelAddr_lt hx hlt))
  · have hthree := (pixel_size hx).1
    unfold pixelAddr
    rcases Nat.lt_or_gt_of_ne (fun heq => hne ⟨heq, rfl⟩) with hlt | hlt
    · have hmul := Nat.mul_le_mul_right (g.bpp / 8) hlt
      rw [Nat.succ_mul] at hmul
      omega
    · have hmul := Nat.mul_le_mul_right (g.bpp / 8) hlt
      rw [Nat.succ_mul] at hmul
      omega
  · exact Or.inr (Nat.le_add_right_of_le (pixelAddr_lt hx' hlt))

lemma putPixel_eq (hy : y < g.height) : putPixel g x y color s =
      ((s.store (pixelAddr g x y) (rgb color).1).store (pixelAddr g x y + 1) (rgb color).2.1).store
      (pixelAddr g x y + 2) (rgb color).2.2 := by
  have hlt := pixelAddr_lt hx hy
  have hsmall := g.small
  rw [Nat.mul_comm] at hsmall
  unfold pixelAddr at hlt
  rw [putPixel, if_neg (by omega), Nat.mod_eq_of_lt (by omega), Nat.mod_eq_of_lt (by omega)]
  rfl

lemma pixelAt_putPixel (hy : y < g.height) (x' y' : Nat) :
    pixelAt g (putPixel g x' y' color s) x y =
      if x' = x ∧ y' = y then rgb color else pixelAt g s x y := by
  by_cases hin : x' < g.width ∧ y' < g.height
  · rw [putPixel_eq hin.1 hin.2]
    by_cases heq : x' = x ∧ y' = y
    · simp [heq, pixelAt, Screen.store]
    · have hapart := pixelAddr_apart hin.1 hx heq
      rw [if_neg heq, pixelAt]
      simp only [Screen.store]
      repeat rw [update_of_ne (by omega)]
      rfl
  · rw [putPixel, if_pos (by omega), if_neg (by omega)]

lemma pixelAt_putPixels (hy : y < g.height) (pixels : List (Nat × Nat × BitVec 32))
    (hcolor : ∀ p ∈ pixels, p.1 = x ∧ p.2.1 = y → p.2.2 = color) :
    pixelAt g (putPixels g s pixels) x y =
      if ∃ p ∈ pixels, p.1 = x ∧ p.2.1 = y then rgb color else pixelAt g s x y := by
  induction pixels generalizing s with
  | nil => simp [putPixels]
  | cons p pixels ih =>
    rw [putPixels, List.foldl_cons]
    refine (ih fun q hq => hcolor q (List.mem_cons_of_mem _ hq)).trans ?_
    rw [pixelAt_putPixel hx hy]
    by_cases hp : p.1 = x ∧ p.2.1 = y
    · simp [hp, hcolor p List.mem_cons_self hp]
    · simp [hp]

end

lemma pixelAt_fbFillRect {w h : Nat} (hx : x' < g.width) (hy : y' < g.height) :
    pixelAt g (fbFillRect g x y w h color s) x' y' = if (x ≤ x' ∧ x' < (x + w) % 2 ^ 32) ∧ y ≤ y' ∧
      y' < (y + h) % 2 ^ 32 then rgb color else pixelAt g s x' y' := by
  rw [fbFillRect, @pixelAt_putPixels g s _ _ color hx hy]
  · refine if_congr ?_ rfl rfl
    simp only [List.mem_flatMap, List.mem_map, List.mem_range'_1]
    constructor
    · rintro ⟨_, ⟨row, hrow, col, hcol, rfl⟩, rfl, rfl⟩
      simp only
      omega
    · intro hin
      exact ⟨_, ⟨y', by omega, x', by omega, rfl⟩, rfl, rfl⟩
  · simp only [List.mem_flatMap, List.mem_map]
    rintro _ ⟨row, -, col, -, rfl⟩ -
    rfl

def blankScreen : Screen := ⟨fun _ => 0, 0, 0⟩

/-- The rectangle is painted as it should be if and only if its corner does
not wrap around, or nothing of it is on the screen. -/
theorem fill_rect_iff (g : Geometry) (x y w h : BitVec 32) :
    (∀ color s c r, c < g.width → r < g.height →
    pixelAt g (fbFillRect g x.toNat y.toNat w.toNat h.toNat color s) c r =
      if (x.toNat ≤ c ∧ c < x.toNat + w.toNat) ∧ y.toNat ≤ r ∧ r < y.toNat + h.toNat then rgb color
      else pixelAt g s c r) ↔ x.toNat + w.toNat < 2 ^ 32 ∧ y.toNat + h.toNat < 2 ^ 32 ∨
      g.width ≤ x.toNat ∨ g.height ≤ y.toNat ∨ w.toNat = 0 ∨ h.toNat = 0 := by
  have hw := w.isLt
  have hh := h.isLt
  constructor
  · intro hall
    by_contra hno
    -- the corner of the rectangle stays black
    have hcorner := hall 0xFFFFFF blankScreen x.toNat y.toNat (by omega) (by omega)
    rw [pixelAt_fbFillRect (by omega) (by omega), if_neg (by omega), if_pos (by omega)] at hcorner
    exact absurd hcorner (by simp [pixelAt, blankScreen, rgb])
  · intro hfits color s c r hc hr
    rw [pixelAt_fbFillRect hc hr]
    exact if_congr (by omega) rfl rfl

def smallScreen : Geometry := ⟨8, 16, 32, 32, by decide, by decide, by decide, by decide⟩

/-- A rectangle from column 1 to the right edge and on is not painted. -/
theorem fill_rect_wraps : pixelAt smallScreen
    (fbFillRect smallScreen 1 0 0xFFFFFFFF 1 0xFFFFFF blankScreen) 1 0 ≠ rgb 0xFFFFFF := by
  rw [pixelAt_fbFillRect (by decide) (by decide)]
  decide

/-! ## Glyphs -/

/-- The cell at the cursor is on the screen. -/
def CellVisible (g : Geometry) (s : Screen) : Prop :=
  s.kFbCursorX + 8 ≤ g.width ∧ s.kFbCursorY + 16 ≤ g.height

/-- The cell at the cursor shows glyph `i`, and the rest has not changed. -/
def ShowsGlyph (g : Geometry) (s s' : Screen) (i : Nat) : Prop :=
  ∀ c r, c < g.width → r < g.height → pixelAt g s' c r =
    if (s.kFbCursorX ≤ c ∧ c < s.kFbCursorX + 8) ∧ s.kFbCursorY ≤ r ∧ r < s.kFbCursorY + 16 then
      rgb (glyphColor i (r - s.kFbCursorY) (c - s.kFbCursorX))
    else pixelAt g s c r

lemma drawGlyph_shows (h : CellVisible g s) : ShowsGlyph g s (drawGlyph g ch s) ch.toNat := by
  intro c r hc hr
  obtain ⟨hx, hy⟩ := h
  obtain ⟨hw, hh, -⟩ := g.words
  rw [drawGlyph, pixelAt_putPixels hc hr]
  · refine if_congr ?_ rfl rfl
    simp only [List.mem_flatMap, List.mem_map, List.mem_range]
    constructor
    · rintro ⟨_, ⟨row, hrow, col, hcol, rfl⟩, rfl, rfl⟩
      simp only
      omega
    · intro hin
      exact ⟨_, ⟨r - s.kFbCursorY, by omega, c - s.kFbCursorX, by omega, rfl⟩, by simp only; omega,
        by simp only; omega⟩
  · simp only [List.mem_flatMap, List.mem_map, List.mem_range]
    rintro _ ⟨row, hrow, col, hcol, rfl⟩ ⟨hcx, hry⟩
    simp only at hcx hry ⊢
    congr <;> omega

/-- The characters that have the same glyph as the one 32 places before. -/
lemma glyphs_eq_iff : ∀ i < 127, 32 ≤ i →
    ((∀ row < 16, ∀ col < 8, glyphColor i row col = glyphColor (i - 32) row col) ↔
      i ∈ [0x43, 0x4D, 0x4E, 0x4F, 0x50, 0x56, 0x57, 0x58, 0x5A, 0x60, 0x7E]) := by
  decide +kernel

/-- A printable character is drawn with its own glyph if and only if it is
one of eleven. -/
theorem own_glyph_iff (g : Geometry) (s : Screen) (h : CellVisible g s) (ch : BitVec 8)
    (hch : 0x20 ≤ ch.toNat ∧ ch.toNat ≤ 0x7E) : fbPutchar g s ch = advance g (drawGlyph g ch s) ∧
      (ShowsGlyph g s (drawGlyph g ch s) (ch.toNat - 0x20) ↔
        ch.toNat ∈ [0x43, 0x4D, 0x4E, 0x4F, 0x50, 0x56, 0x57, 0x58, 0x5A, 0x60, 0x7E]) := by
  have hother : ∀ c : BitVec 8, c.toNat < 0x20 → ch ≠ c := by
    rintro _ hc rfl
    omega
  have hprints : ¬ (ch < 0x20 ∨ ch > 0x7E) := by
    simp only [BitVec.lt_def, gt_iff_lt, BitVec.reduceToNat]
    omega
  refine ⟨?_, ?_⟩
  · rw [fbPutchar, if_neg (hother _ (by decide)), if_neg (hother _ (by decide)),
      if_neg (hother _ (by decide)), if_neg hprints]
  rw [← glyphs_eq_iff _ (by omega) hch.1]
  have hshows := @drawGlyph_shows g s ch h
  have hx := h.1
  have hy := h.2
  have hrgb : ∀ i j row col, rgb (glyphColor i row col) = rgb (glyphColor j row col) →
      glyphColor i row col = glyphColor j row col := by
    intro i j row col
    unfold glyphColor
    split <;> split <;> decide
  constructor
  · intro hown row hrow col hcol
    have hpixel := hown (s.kFbCursorX + col) (s.kFbCursorY + row) (by omega) (by omega)
    rw [hshows _ _ (by omega) (by omega), if_pos (by omega), if_pos (by omega),
      Nat.add_sub_cancel_left, Nat.add_sub_cancel_left] at hpixel
    exact hrgb _ _ _ _ hpixel
  · intro hall c r hc hr
    rw [hshows c r hc hr]
    split
    next hin => rw [hall _ (by omega) _ (by omega)]
    · rfl

lemma smallScreen_visible : CellVisible smallScreen blankScreen := ⟨by decide, by decide⟩

theorem own_glyph_C : CellVisible smallScreen blankScreen ∧
    ShowsGlyph smallScreen blankScreen (drawGlyph smallScreen 0x43 blankScreen) 0x23 :=
  ⟨smallScreen_visible, (own_glyph_iff smallScreen blankScreen smallScreen_visible 0x43
    (by decide)).2.mpr (by decide)⟩

/-- For `!` the cell shows the glyph of `A`. -/
theorem exclamation_shows_A : CellVisible smallScreen blankScreen ∧
    ShowsGlyph smallScreen blankScreen (drawGlyph smallScreen 0x21 blankScreen) (0x41 - 0x20) ∧
    ¬ ShowsGlyph smallScreen blankScreen (drawGlyph smallScreen 0x21 blankScreen)
      (0x21 - 0x20) := by
  refine ⟨smallScreen_visible, drawGlyph_shows smallScreen_visible, fun h => ?_⟩
  have hpixel := h 4 11 (by decide) (by decide)
  rw [drawGlyph_shows smallScreen_visible 4 11 (by decide) (by decide)] at hpixel
  exact absurd hpixel (by decide)

/-! ## The cursor -/

lemma foldl_keeps {α β : Type} {step : Screen → α → Screen} {f : Screen → β}
    (h : ∀ s a, f (step s a) = f s) (l : List α) (s : Screen) : f (l.foldl step s) = f s := by
  induction l generalizing s with
  | nil => rfl
  | cons a l ih => rw [List.foldl_cons, ih, h]

def Screen.cursor (s : Screen) : Nat × Nat := (s.kFbCursorX, s.kFbCursorY)

lemma putPixels_cursor (pixels : List (Nat × Nat × BitVec 32)) :
    (putPixels g s pixels).cursor = s.cursor := by
  refine foldl_keeps (fun s p => ?_) pixels s
  unfold putPixel
  split <;> rfl

lemma fbScroll_cursorX : (fbScroll g lines s).kFbCursorX = s.kFbCursorX := by
  unfold fbScroll
  split
  · rfl
  · refine (foldl_keeps (f := Screen.kFbCursorX) ?_ _ _).trans
      (foldl_keeps (f := Screen.kFbCursorX) ?_ _ _)
    · exact fun _ _ => rfl
    · exact fun _ _ => rfl

lemma small_sides (hw : 8 ≤ g.width) (hh : 16 ≤ g.height) :
    24 * g.height < 2 ^ 32 ∧ 48 * g.width < 2 ^ 32 := by
  obtain ⟨hthree, hpitch⟩ := pixel_size (Nat.sub_one_lt_of_lt hw)
  have hsmall := g.small
  have hwide := Nat.mul_le_mul_left g.width hthree
  rw [Nat.sub_add_cancel (by omega)] at hpitch
  have htall := Nat.mul_le_mul_left g.pitch hh
  have hlines := Nat.mul_le_mul_right g.height (show 24 ≤ g.pitch by omega)
  omega

/-- The character takes a cell. Codes without a glyph are drawn as spaces. -/
def Drawn (ch : BitVec 8) : Prop := ch ≠ 0x0A ∧ ch ≠ 0x0D ∧ ch ≠ 0x09

/-- The column of the next cell, on a screen with `W` columns, if this one
is on the screen. A column has eight pixels, so that 32 bits count `2 ^ 29`. -/
def columnStep (W k : Nat) (ch : BitVec 8) : Nat :=
  if ch = 0x0A ∨ ch = 0x0D then 0 else if ch = 0x09 then (k + 4) % 2 ^ 29 else (k + 1) % W

def column (W : Nat) (str : List (BitVec 8)) : Nat := str.foldl (columnStep W) 0

lemma columnStep_lt {W : Nat} (hW : 0 < W) (k : Nat) (hch : ch ≠ 0x09) : columnStep W k ch < W := by
  unfold columnStep
  rw [if_neg hch]
  split
  · exact hW
  · exact Nat.mod_lt _ hW

/-- The cursor is in column `k`, in a row of the screen. -/
def AtColumn (g : Geometry) (s : Screen) (k : Nat) : Prop :=
  s.kFbCursorX = 8 * k ∧ k < 2 ^ 29 ∧ s.kFbCursorY + 16 ≤ g.height

lemma AtColumn.visible_iff {k : Nat} (h : AtColumn g s k) : CellVisible g s ↔ k < g.width / 8 := by
  obtain ⟨hx, -, hy⟩ := h
  unfold CellVisible
  omega

section

variable (hw : 8 ≤ g.width) (hh : 16 ≤ g.height)
include hw hh

lemma newLine_atColumn (hy : s.kFbCursorY + 16 ≤ g.height) : AtColumn g (newLine g s) 0 := by
  have hsides := small_sides hw hh
  unfold newLine
  simp only
  split
  · exact ⟨fbScroll_cursorX, by decide, by simp only; omega⟩
  · exact ⟨rfl, by decide, by simp only; omega⟩

lemma fbPutchar_atColumn {k : Nat} (h : AtColumn g s k) (hdrawn : Drawn ch → k < g.width / 8) :
    AtColumn g (fbPutchar g s ch) (columnStep (g.width / 8) k ch) := by
  have hsides := small_sides hw hh
  obtain ⟨hx, hk, hy⟩ := h
  unfold fbPutchar columnStep
  by_cases hlf : ch = 0x0A
  · rw [if_pos hlf, if_pos (Or.inl hlf)]
    exact newLine_atColumn hw hh hy
  rw [if_neg hlf]
  by_cases hcr : ch = 0x0D
  · rw [if_pos hcr, if_pos (Or.inr hcr)]
    exact ⟨rfl, by decide, hy⟩
  rw [if_neg hcr, if_neg (not_or.mpr ⟨hlf, hcr⟩)]
  by_cases hht : ch = 0x09
  · rw [if_pos hht, if_pos hht]
    exact ⟨by simp only; omega, Nat.mod_lt _ (by decide), hy⟩
  rw [if_neg hht, if_neg hht, advance]
  have hlt := hdrawn ⟨hlf, hcr, hht⟩
  have hcursor : (drawGlyph g (if ch < 0x20 ∨ ch > 0x7E then 0x20 else ch) s).cursor = s.cursor :=
    putPixels_cursor _
  generalize drawGlyph g _ s = s' at hcursor
  obtain ⟨hx', hy'⟩ := Prod.mk.inj hcursor
  simp only [hx']
  split
  · have hlast : k + 1 = g.width / 8 := by omega
    rw [hlast, Nat.mod_self]
    exact newLine_atColumn hw hh (hy'.symm ▸ hy)
  · have hnext : (k + 1) % (g.width / 8) = k + 1 := Nat.mod_eq_of_lt (by omega)
    exact ⟨by simp only [hnext]; omega, by omega, hy'.symm ▸ hy⟩

/-- The cursor is where the columns say, as long as what is drawn is on the
screen. -/
lemma fbWrite_atColumn (hcursor : s.cursor = (0, 0)) {str : List (BitVec 8)}
    (hdrawn : ∀ i ch, str[i]? = some ch → Drawn ch →
      AtColumn g (fbWrite g s (str.take i)) (column (g.width / 8) (str.take i)) →
      column (g.width / 8) (str.take i) < g.width / 8) (i : Nat) :
    AtColumn g (fbWrite g s (str.take i)) (column (g.width / 8) (str.take i)) := by
  induction i with
  | zero =>
    obtain ⟨hx, hy⟩ := Prod.mk.inj hcursor
    exact ⟨hx, Nat.two_pow_pos 29, show s.kFbCursorY + 16 ≤ g.height by omega⟩
  | succ i ih =>
    rw [List.take_add_one]
    cases hch : str[i]? with
    | none => simpa using ih
    | some ch =>
      rw [Option.toList_some, fbWrite, column, List.foldl_concat, List.foldl_concat]
      exact fbPutchar_atColumn hw hh ih fun hd => hdrawn i ch hch hd ih

end

/-- Every character that is drawn is drawn on the screen if and only if each
one behind a tab has a column of the screen. -/
theorem fb_write_visible_iff (g : Geometry) (hw : 8 ≤ g.width) (hh : 16 ≤ g.height) (s : Screen)
    (hcursor : s.cursor = (0, 0)) (str : List (BitVec 8)) :
    (∀ i ch, str[i]? = some ch → Drawn ch → CellVisible g (fbWrite g s (str.take i))) ↔
      ∀ i ch, str[i]? = some 0x09 → str[i + 1]? = some ch → Drawn ch →
        (column (g.width / 8) (str.take i) + 4) % 2 ^ 29 < g.width / 8 := by
  constructor
  · intro hvisible i ch htab hch hd
    have hat : AtColumn g (fbWrite g s (str.take (i + 1))) _ := fbWrite_atColumn hw hh hcursor
      (fun i ch hch hd hat => hat.visible_iff.mp (hvisible i ch hch hd)) (i + 1)
    have hlt := hat.visible_iff.mp (hvisible (i + 1) ch hch hd)
    rw [List.take_add_one, htab, Option.toList_some, column, List.foldl_concat] at hlt
    exact hlt
  · intro htabs
    have hcolumn : ∀ i ch, str[i]? = some ch → Drawn ch →
        column (g.width / 8) (str.take i) < g.width / 8 := by
      intro i ch hch hd
      cases i with
      | zero =>
        show 0 < g.width / 8
        omega
      | succ i =>
        obtain ⟨hi, -⟩ := List.getElem?_eq_some_iff.mp hch
        have hlast : str[i]? = some (str.get ⟨i, by omega⟩) := List.getElem?_eq_getElem _
        generalize str.get _ = c at hlast
        rw [List.take_add_one, hlast, Option.toList_some, column, List.foldl_concat]
        by_cases hc : c = 0x09
        · subst hc
          exact htabs i ch hlast hch hd
        · exact columnStep_lt (by omega) _ hc
    intro i ch hch hd
    have hat := fbWrite_atColumn hw hh hcursor (fun i ch hch hd _ => hcolumn i ch hch hd) i
    exact hat.visible_iff.mpr (hcolumn i ch hch hd)

/-- A screen with eight columns. -/
def wideScreen : Geometry := ⟨64, 16, 256, 32, by decide, by decide, by decide, by decide⟩

/-- `A`, a tab that fits, `B`, two tabs that leave the screen, a carriage
return and `C`. -/
theorem fb_write_visible_tabs : blankScreen.cursor = (0, 0) ∧ ∀ i ch,
    [(0x41 : BitVec 8), 0x09, 0x42, 0x09, 0x09, 0x0D, 0x43][i]? = some ch → Drawn ch →
      CellVisible wideScreen (fbWrite wideScreen blankScreen
        ([0x41, 0x09, 0x42, 0x09, 0x09, 0x0D, 0x43].take i)) := by
  refine ⟨rfl, (fb_write_visible_iff wideScreen (by decide) (by decide) blankScreen rfl _).mpr ?_⟩
  intro i ch htab hch hd
  have hi : i < 7 := (List.getElem?_eq_some_iff.mp htab).1
  interval_cases i
  all_goals simp_all [Drawn]
  decide

/-- A character behind a tab is drawn to the right of the screen. -/
theorem tab_leaves_screen : [0x09] ++ [0x41] <+: [(0x09 : BitVec 8), 0x41] ∧
    ¬ CellVisible smallScreen (fbWrite smallScreen blankScreen [0x09]) :=
  ⟨List.prefix_rfl, fun h => absurd h.1 (by decide)⟩

end VortexOS.Dev
