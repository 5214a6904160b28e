import Ceylon.Text.CodeRun

/-!
# Punctuation, symbols and separators

The code points of punctuation, symbols, separators and control characters by general category, in
increasing order.
-/

namespace Ceylon.Text.Category

/-- Connecting punctuation. -/
def pcRuns : Array CodeRun := #[
  ⟨0x5f, 0x5f, 1⟩, ⟨0x203f, 0x2040, 1⟩, ⟨0x2054, 0x2054, 1⟩, ⟨0xfe33, 0xfe34, 1⟩,
  ⟨0xfe4d, 0xfe4f, 1⟩, ⟨0xff3f, 0xff3f, 1⟩]

/-- Dashes. -/
def pdRuns : Array CodeRun := #[
  ⟨0x2d, 0x2d, 1⟩, ⟨0x58a, 0x58a, 1⟩, ⟨0x5be, 0x5be, 1⟩, ⟨0x1400, 0x1400, 1⟩, ⟨0x1806, 0x1806, 1⟩,
  ⟨0x2010, 0x2015, 1⟩, ⟨0x2e17, 0x2e17, 1⟩, ⟨0x2e1a, 0x2e1a, 1⟩, ⟨0x2e3a, 0x2e3b, 1⟩,
  ⟨0x2e40, 0x2e40, 1⟩, ⟨0x2e5d, 0x2e5d, 1⟩, ⟨0x301c, 0x301c, 1⟩, ⟨0x3030, 0x3030, 1⟩,
  ⟨0x30a0, 0x30a0, 1⟩, ⟨0xfe31, 0xfe32, 1⟩, ⟨0xfe58, 0xfe58, 1⟩, ⟨0xfe63, 0xfe63, 1⟩,
  ⟨0xff0d, 0xff0d, 1⟩, ⟨0x10d6e, 0x10d6e, 1⟩, ⟨0x10ead, 0x10ead, 1⟩]

/-- Opening punctuation. -/
def psRuns : Array CodeRun := #[
  ⟨0x28, 0x28, 1⟩, ⟨0x5b, 0x5b, 1⟩, ⟨0x7b, 0x7b, 1⟩, ⟨0xf3a, 0xf3a, 1⟩, ⟨0xf3c, 0xf3c, 1⟩,
  ⟨0x169b, 0x169b, 1⟩, ⟨0x201a, 0x201a, 1⟩, ⟨0x201e, 0x201e, 1⟩, ⟨0x2045, 0x2045, 1⟩,
  ⟨0x207d, 0x207d, 1⟩, ⟨0x208d, 0x208d, 1⟩, ⟨0x2308, 0x2308, 1⟩, ⟨0x230a, 0x230a, 1⟩,
  ⟨0x2329, 0x2329, 1⟩, ⟨0x2768, 0x2774, 2⟩, ⟨0x27c5, 0x27c5, 1⟩, ⟨0x27e6, 0x27ee, 2⟩,
  ⟨0x2983, 0x2997, 2⟩, ⟨0x29d8, 0x29d8, 1⟩, ⟨0x29da, 0x29da, 1⟩, ⟨0x29fc, 0x29fc, 1⟩,
  ⟨0x2e22, 0x2e28, 2⟩, ⟨0x2e42, 0x2e42, 1⟩, ⟨0x2e55, 0x2e5b, 2⟩, ⟨0x3008, 0x3010, 2⟩,
  ⟨0x3014, 0x301a, 2⟩, ⟨0x301d, 0x301d, 1⟩, ⟨0xfd3f, 0xfd3f, 1⟩, ⟨0xfe17, 0xfe17, 1⟩,
  ⟨0xfe35, 0xfe43, 2⟩, ⟨0xfe47, 0xfe47, 1⟩, ⟨0xfe59, 0xfe5d, 2⟩, ⟨0xff08, 0xff08, 1⟩,
  ⟨0xff3b, 0xff3b, 1⟩, ⟨0xff5b, 0xff5b, 1⟩, ⟨0xff5f, 0xff5f, 1⟩, ⟨0xff62, 0xff62, 1⟩]

/-- Closing punctuation. -/
def peRuns : Array CodeRun := #[
  ⟨0x29, 0x29, 1⟩, ⟨0x5d, 0x5d, 1⟩, ⟨0x7d, 0x7d, 1⟩, ⟨0xf3b, 0xf3b, 1⟩, ⟨0xf3d, 0xf3d, 1⟩,
  ⟨0x169c, 0x169c, 1⟩, ⟨0x2046, 0x2046, 1⟩, ⟨0x207e, 0x207e, 1⟩, ⟨0x208e, 0x208e, 1⟩,
  ⟨0x2309, 0x2309, 1⟩, ⟨0x230b, 0x230b, 1⟩, ⟨0x232a, 0x232a, 1⟩, ⟨0x2769, 0x2775, 2⟩,
  ⟨0x27c6, 0x27c6, 1⟩, ⟨0x27e7, 0x27ef, 2⟩, ⟨0x2984, 0x2998, 2⟩, ⟨0x29d9, 0x29d9, 1⟩,
  ⟨0x29db, 0x29db, 1⟩, ⟨0x29fd, 0x29fd, 1⟩, ⟨0x2e23, 0x2e29, 2⟩, ⟨0x2e56, 0x2e5c, 2⟩,
  ⟨0x3009, 0x3011, 2⟩, ⟨0x3015, 0x301b, 2⟩, ⟨0x301e, 0x301f, 1⟩, ⟨0xfd3e, 0xfd3e, 1⟩,
  ⟨0xfe18, 0xfe18, 1⟩, ⟨0xfe36, 0xfe44, 2⟩, ⟨0xfe48, 0xfe48, 1⟩, ⟨0xfe5a, 0xfe5e, 2⟩,
  ⟨0xff09, 0xff09, 1⟩, ⟨0xff3d, 0xff3d, 1⟩, ⟨0xff5d, 0xff5d, 1⟩, ⟨0xff60, 0xff60, 1⟩,
  ⟨0xff63, 0xff63, 1⟩]

/-- Initial quotation marks. -/
def piRuns : Array CodeRun := #[
  ⟨0xab, 0xab, 1⟩, ⟨0x2018, 0x2018, 1⟩, ⟨0x201b, 0x201c, 1⟩, ⟨0x201f, 0x201f, 1⟩,
  ⟨0x2039, 0x2039, 1⟩, ⟨0x2e02, 0x2e02, 1⟩, ⟨0x2e04, 0x2e04, 1⟩, ⟨0x2e09, 0x2e09, 1⟩,
  ⟨0x2e0c, 0x2e0c, 1⟩, ⟨0x2e1c, 0x2e1c, 1⟩, ⟨0x2e20, 0x2e20, 1⟩]

/-- Final quotation marks. -/
def pfRuns : Array CodeRun := #[
  ⟨0xbb, 0xbb, 1⟩, ⟨0x2019, 0x2019, 1⟩, ⟨0x201d, 0x201d, 1⟩, ⟨0x203a, 0x203a, 1⟩,
  ⟨0x2e03, 0x2e03, 1⟩, ⟨0x2e05, 0x2e05, 1⟩, ⟨0x2e0a, 0x2e0a, 1⟩, ⟨0x2e0d, 0x2e0d, 1⟩,
  ⟨0x2e1d, 0x2e1d, 1⟩, ⟨0x2e21, 0x2e21, 1⟩]

/-- Other punctuation. -/
def poRuns : Array CodeRun := #[
  ⟨0x21, 0x23, 1⟩, ⟨0x25, 0x27, 1⟩, ⟨0x2a, 0x2a, 1⟩, ⟨0x2c, 0x2c, 1⟩, ⟨0x2e, 0x2f, 1⟩,
  ⟨0x3a, 0x3b, 1⟩, ⟨0x3f, 0x40, 1⟩, ⟨0x5c, 0x5c, 1⟩, ⟨0xa1, 0xa1, 1⟩, ⟨0xa7, 0xa7, 1⟩,
  ⟨0xb6, 0xb7, 1⟩, ⟨0xbf, 0xbf, 1⟩, ⟨0x37e, 0x37e, 1⟩, ⟨0x387, 0x387, 1⟩, ⟨0x55a, 0x55f, 1⟩,
  ⟨0x589, 0x589, 1⟩, ⟨0x5c0, 0x5c0, 1⟩, ⟨0x5c3, 0x5c3, 1⟩, ⟨0x5c6, 0x5c6, 1⟩, ⟨0x5f3, 0x5f4, 1⟩,
  ⟨0x609, 0x60a, 1⟩, ⟨0x60c, 0x60d, 1⟩, ⟨0x61b, 0x61b, 1⟩, ⟨0x61d, 0x61f, 1⟩, ⟨0x66a, 0x66d, 1⟩,
  ⟨0x6d4, 0x6d4, 1⟩, ⟨0x700, 0x70d, 1⟩, ⟨0x7f7, 0x7f9, 1⟩, ⟨0x830, 0x83e, 1⟩, ⟨0x85e, 0x85e, 1⟩,
  ⟨0x964, 0x965, 1⟩, ⟨0x970, 0x970, 1⟩, ⟨0x9fd, 0x9fd, 1⟩, ⟨0xa76, 0xa76, 1⟩, ⟨0xaf0, 0xaf0, 1⟩,
  ⟨0xc77, 0xc77, 1⟩, ⟨0xc84, 0xc84, 1⟩, ⟨0xdf4, 0xdf4, 1⟩, ⟨0xe4f, 0xe4f, 1⟩, ⟨0xe5a, 0xe5b, 1⟩,
  ⟨0xf04, 0xf12, 1⟩, ⟨0xf14, 0xf14, 1⟩, ⟨0xf85, 0xf85, 1⟩, ⟨0xfd0, 0xfd4, 1⟩, ⟨0xfd9, 0xfda, 1⟩,
  ⟨0x104a, 0x104f, 1⟩, ⟨0x10fb, 0x10fb, 1⟩, ⟨0x1360, 0x1368, 1⟩, ⟨0x166e, 0x166e, 1⟩,
  ⟨0x16eb, 0x16ed, 1⟩, ⟨0x1735, 0x1736, 1⟩, ⟨0x17d4, 0x17d6, 1⟩, ⟨0x17d8, 0x17da, 1⟩,
  ⟨0x1800, 0x1805, 1⟩, ⟨0x1807, 0x180a, 1⟩, ⟨0x1944, 0x1945, 1⟩, ⟨0x1a1e, 0x1a1f, 1⟩,
  ⟨0x1aa0, 0x1aa6, 1⟩, ⟨0x1aa8, 0x1aad, 1⟩, ⟨0x1b4e, 0x1b4f, 1⟩, ⟨0x1b5a, 0x1b60, 1⟩,
  ⟨0x1b7d, 0x1b7f, 1⟩, ⟨0x1bfc, 0x1bff, 1⟩, ⟨0x1c3b, 0x1c3f, 1⟩, ⟨0x1c7e, 0x1c7f, 1⟩,
  ⟨0x1cc0, 0x1cc7, 1⟩, ⟨0x1cd3, 0x1cd3, 1⟩, ⟨0x2016, 0x2017, 1⟩, ⟨0x2020, 0x2027, 1⟩,
  ⟨0x2030, 0x2038, 1⟩, ⟨0x203b, 0x203e, 1⟩, ⟨0x2041, 0x2043, 1⟩, ⟨0x2047, 0x2051, 1⟩,
  ⟨0x2053, 0x2053, 1⟩, ⟨0x2055, 0x205e, 1⟩, ⟨0x2cf9, 0x2cfc, 1⟩, ⟨0x2cfe, 0x2cff, 1⟩,
  ⟨0x2d70, 0x2d70, 1⟩, ⟨0x2e00, 0x2e01, 1⟩, ⟨0x2e06, 0x2e08, 1⟩, ⟨0x2e0b, 0x2e0b, 1⟩,
  ⟨0x2e0e, 0x2e16, 1⟩, ⟨0x2e18, 0x2e19, 1⟩, ⟨0x2e1b, 0x2e1b, 1⟩, ⟨0x2e1e, 0x2e1f, 1⟩,
  ⟨0x2e2a, 0x2e2e, 1⟩, ⟨0x2e30, 0x2e39, 1⟩, ⟨0x2e3c, 0x2e3f, 1⟩, ⟨0x2e41, 0x2e41, 1⟩,
  ⟨0x2e43, 0x2e4f, 1⟩, ⟨0x2e52, 0x2e54, 1⟩, ⟨0x3001, 0x3003, 1⟩, ⟨0x303d, 0x303d, 1⟩,
  ⟨0x30fb, 0x30fb, 1⟩, ⟨0xa4fe, 0xa4ff, 1⟩, ⟨0xa60d, 0xa60f, 1⟩, ⟨0xa673, 0xa673, 1⟩,
  ⟨0xa67e, 0xa67e, 1⟩, ⟨0xa6f2, 0xa6f7, 1⟩, ⟨0xa874, 0xa877, 1⟩, ⟨0xa8ce, 0xa8cf, 1⟩,
  ⟨0xa8f8, 0xa8fa, 1⟩, ⟨0xa8fc, 0xa8fc, 1⟩, ⟨0xa92e, 0xa92f, 1⟩, ⟨0xa95f, 0xa95f, 1⟩,
  ⟨0xa9c1, 0xa9cd, 1⟩, ⟨0xa9de, 0xa9df, 1⟩, ⟨0xaa5c, 0xaa5f, 1⟩, ⟨0xaade, 0xaadf, 1⟩,
  ⟨0xaaf0, 0xaaf1, 1⟩, ⟨0xabeb, 0xabeb, 1⟩, ⟨0xfe10, 0xfe16, 1⟩, ⟨0xfe19, 0xfe19, 1⟩,
  ⟨0xfe30, 0xfe30, 1⟩, ⟨0xfe45, 0xfe46, 1⟩, ⟨0xfe49, 0xfe4c, 1⟩, ⟨0xfe50, 0xfe52, 1⟩,
  ⟨0xfe54, 0xfe57, 1⟩, ⟨0xfe5f, 0xfe61, 1⟩, ⟨0xfe68, 0xfe68, 1⟩, ⟨0xfe6a, 0xfe6b, 1⟩,
  ⟨0xff01, 0xff03, 1⟩, ⟨0xff05, 0xff07, 1⟩, ⟨0xff0a, 0xff0a, 1⟩, ⟨0xff0c, 0xff0c, 1⟩,
  ⟨0xff0e, 0xff0f, 1⟩, ⟨0xff1a, 0xff1b, 1⟩, ⟨0xff1f, 0xff20, 1⟩, ⟨0xff3c, 0xff3c, 1⟩,
  ⟨0xff61, 0xff61, 1⟩, ⟨0xff64, 0xff65, 1⟩, ⟨0x10100, 0x10102, 1⟩, ⟨0x1039f, 0x1039f, 1⟩,
  ⟨0x103d0, 0x103d0, 1⟩, ⟨0x1056f, 0x1056f, 1⟩, ⟨0x10857, 0x10857, 1⟩, ⟨0x1091f, 0x1091f, 1⟩,
  ⟨0x1093f, 0x1093f, 1⟩, ⟨0x10a50, 0x10a58, 1⟩, ⟨0x10a7f, 0x10a7f, 1⟩, ⟨0x10af0, 0x10af6, 1⟩,
  ⟨0x10b39, 0x10b3f, 1⟩, ⟨0x10b99, 0x10b9c, 1⟩, ⟨0x10ed0, 0x10ed0, 1⟩, ⟨0x10f55, 0x10f59, 1⟩,
  ⟨0x10f86, 0x10f89, 1⟩, ⟨0x11047, 0x1104d, 1⟩, ⟨0x110bb, 0x110bc, 1⟩, ⟨0x110be, 0x110c1, 1⟩,
  ⟨0x11140, 0x11143, 1⟩, ⟨0x11174, 0x11175, 1⟩, ⟨0x111c5, 0x111c8, 1⟩, ⟨0x111cd, 0x111cd, 1⟩,
  ⟨0x111db, 0x111db, 1⟩, ⟨0x111dd, 0x111df, 1⟩, ⟨0x11238, 0x1123d, 1⟩, ⟨0x112a9, 0x112a9, 1⟩,
  ⟨0x113d4, 0x113d5, 1⟩, ⟨0x113d7, 0x113d8, 1⟩, ⟨0x1144b, 0x1144f, 1⟩, ⟨0x1145a, 0x1145b, 1⟩,
  ⟨0x1145d, 0x1145d, 1⟩, ⟨0x114c6, 0x114c6, 1⟩, ⟨0x115c1, 0x115d7, 1⟩, ⟨0x11641, 0x11643, 1⟩,
  ⟨0x11660, 0x1166c, 1⟩, ⟨0x116b9, 0x116b9, 1⟩, ⟨0x1173c, 0x1173e, 1⟩, ⟨0x1183b, 0x1183b, 1⟩,
  ⟨0x11944, 0x11946, 1⟩, ⟨0x119e2, 0x119e2, 1⟩, ⟨0x11a3f, 0x11a46, 1⟩, ⟨0x11a9a, 0x11a9c, 1⟩,
  ⟨0x11a9e, 0x11aa2, 1⟩, ⟨0x11b00, 0x11b09, 1⟩, ⟨0x11be1, 0x11be1, 1⟩, ⟨0x11c41, 0x11c45, 1⟩,
  ⟨0x11c70, 0x11c71, 1⟩, ⟨0x11ef7, 0x11ef8, 1⟩, ⟨0x11f43, 0x11f4f, 1⟩, ⟨0x11fff, 0x11fff, 1⟩,
  ⟨0x12470, 0x12474, 1⟩, ⟨0x12ff1, 0x12ff2, 1⟩, ⟨0x16a6e, 0x16a6f, 1⟩, ⟨0x16af5, 0x16af5, 1⟩,
  ⟨0x16b37, 0x16b3b, 1⟩, ⟨0x16b44, 0x16b44, 1⟩, ⟨0x16d6d, 0x16d6f, 1⟩, ⟨0x16e97, 0x16e9a, 1⟩,
  ⟨0x16fe2, 0x16fe2, 1⟩, ⟨0x1bc9f, 0x1bc9f, 1⟩, ⟨0x1da87, 0x1da8b, 1⟩, ⟨0x1e5ff, 0x1e5ff, 1⟩,
  ⟨0x1e95e, 0x1e95f, 1⟩]

/-- Mathematical symbols. -/
def smRuns : Array CodeRun := #[
  ⟨0x2b, 0x2b, 1⟩, ⟨0x3c, 0x3e, 1⟩, ⟨0x7c, 0x7c, 1⟩, ⟨0x7e, 0x7e, 1⟩, ⟨0xac, 0xac, 1⟩,
  ⟨0xb1, 0xb1, 1⟩, ⟨0xd7, 0xd7, 1⟩, ⟨0xf7, 0xf7, 1⟩, ⟨0x3f6, 0x3f6, 1⟩, ⟨0x606, 0x608, 1⟩,
  ⟨0x2044, 0x2044, 1⟩, ⟨0x2052, 0x2052, 1⟩, ⟨0x207a, 0x207c, 1⟩, ⟨0x208a, 0x208c, 1⟩,
  ⟨0x2118, 0x2118, 1⟩, ⟨0x2140, 0x2144, 1⟩, ⟨0x214b, 0x214b, 1⟩, ⟨0x2190, 0x2194, 1⟩,
  ⟨0x219a, 0x219b, 1⟩, ⟨0x21a0, 0x21a0, 1⟩, ⟨0x21a3, 0x21a3, 1⟩, ⟨0x21a6, 0x21a6, 1⟩,
  ⟨0x21ae, 0x21ae, 1⟩, ⟨0x21ce, 0x21cf, 1⟩, ⟨0x21d2, 0x21d2, 1⟩, ⟨0x21d4, 0x21d4, 1⟩,
  ⟨0x21f4, 0x22ff, 1⟩, ⟨0x2320, 0x2321, 1⟩, ⟨0x237c, 0x237c, 1⟩, ⟨0x239b, 0x23b3, 1⟩,
  ⟨0x23dc, 0x23e1, 1⟩, ⟨0x25b7, 0x25b7, 1⟩, ⟨0x25c1, 0x25c1, 1⟩, ⟨0x25f8, 0x25ff, 1⟩,
  ⟨0x266f, 0x266f, 1⟩, ⟨0x27c0, 0x27c4, 1⟩, ⟨0x27c7, 0x27e5, 1⟩, ⟨0x27f0, 0x27ff, 1⟩,
  ⟨0x2900, 0x2982, 1⟩, ⟨0x2999, 0x29d7, 1⟩, ⟨0x29dc, 0x29fb, 1⟩, ⟨0x29fe, 0x2aff, 1⟩,
  ⟨0x2b30, 0x2b44, 1⟩, ⟨0x2b47, 0x2b4c, 1⟩, ⟨0xfb29, 0xfb29, 1⟩, ⟨0xfe62, 0xfe62, 1⟩,
  ⟨0xfe64, 0xfe66, 1⟩, ⟨0xff0b, 0xff0b, 1⟩, ⟨0xff1c, 0xff1e, 1⟩, ⟨0xff5c, 0xff5c, 1⟩,
  ⟨0xff5e, 0xff5e, 1⟩, ⟨0xffe2, 0xffe2, 1⟩, ⟨0xffe9, 0xffec, 1⟩, ⟨0x10d8e, 0x10d8f, 1⟩,
  ⟨0x1cef0, 0x1cef0, 1⟩, ⟨0x1d6c1, 0x1d6c1, 1⟩, ⟨0x1d6db, 0x1d6db, 1⟩, ⟨0x1d6fb, 0x1d6fb, 1⟩,
  ⟨0x1d715, 0x1d715, 1⟩, ⟨0x1d735, 0x1d735, 1⟩, ⟨0x1d74f, 0x1d74f, 1⟩, ⟨0x1d76f, 0x1d76f, 1⟩,
  ⟨0x1d789, 0x1d789, 1⟩, ⟨0x1d7a9, 0x1d7a9, 1⟩, ⟨0x1d7c3, 0x1d7c3, 1⟩, ⟨0x1eef0, 0x1eef1, 1⟩,
  ⟨0x1f8d0, 0x1f8d8, 1⟩]

/-- Currency symbols. -/
def scRuns : Array CodeRun := #[
  ⟨0x24, 0x24, 1⟩, ⟨0xa2, 0xa5, 1⟩, ⟨0x58f, 0x58f, 1⟩, ⟨0x60b, 0x60b, 1⟩, ⟨0x7fe, 0x7ff, 1⟩,
  ⟨0x9f2, 0x9f3, 1⟩, ⟨0x9fb, 0x9fb, 1⟩, ⟨0xaf1, 0xaf1, 1⟩, ⟨0xbf9, 0xbf9, 1⟩, ⟨0xe3f, 0xe3f, 1⟩,
  ⟨0x17db, 0x17db, 1⟩, ⟨0x20a0, 0x20c1, 1⟩, ⟨0xa838, 0xa838, 1⟩, ⟨0xfdfc, 0xfdfc, 1⟩,
  ⟨0xfe69, 0xfe69, 1⟩, ⟨0xff04, 0xff04, 1⟩, ⟨0xffe0, 0xffe1, 1⟩, ⟨0xffe5, 0xffe6, 1⟩,
  ⟨0x11fdd, 0x11fe0, 1⟩, ⟨0x1e2ff, 0x1e2ff, 1⟩, ⟨0x1ecb0, 0x1ecb0, 1⟩]

/-- Modifier symbols. -/
def skRuns : Array CodeRun := #[
  ⟨0x5e, 0x5e, 1⟩, ⟨0x60, 0x60, 1⟩, ⟨0xa8, 0xa8, 1⟩, ⟨0xaf, 0xaf, 1⟩, ⟨0xb4, 0xb4, 1⟩,
  ⟨0xb8, 0xb8, 1⟩, ⟨0x2c2, 0x2c5, 1⟩, ⟨0x2d2, 0x2df, 1⟩, ⟨0x2e5, 0x2eb, 1⟩, ⟨0x2ed, 0x2ed, 1⟩,
  ⟨0x2ef, 0x2ff, 1⟩, ⟨0x375, 0x375, 1⟩, ⟨0x384, 0x385, 1⟩, ⟨0x888, 0x888, 1⟩, ⟨0x1fbd, 0x1fbd, 1⟩,
  ⟨0x1fbf, 0x1fc1, 1⟩, ⟨0x1fcd, 0x1fcf, 1⟩, ⟨0x1fdd, 0x1fdf, 1⟩, ⟨0x1fed, 0x1fef, 1⟩,
  ⟨0x1ffd, 0x1ffe, 1⟩, ⟨0x309b, 0x309c, 1⟩, ⟨0xa700, 0xa716, 1⟩, ⟨0xa720, 0xa721, 1⟩,
  ⟨0xa789, 0xa78a, 1⟩, ⟨0xab5b, 0xab5b, 1⟩, ⟨0xab6a, 0xab6b, 1⟩, ⟨0xfbb2, 0xfbc2, 1⟩,
  ⟨0xff3e, 0xff3e, 1⟩, ⟨0xff40, 0xff40, 1⟩, ⟨0xffe3, 0xffe3, 1⟩, ⟨0x1f3fb, 0x1f3ff, 1⟩]

/-- Other symbols. -/
def soRuns : Array CodeRun := #[
  ⟨0xa6, 0xa6, 1⟩, ⟨0xa9, 0xa9, 1⟩, ⟨0xae, 0xae, 1⟩, ⟨0xb0, 0xb0, 1⟩, ⟨0x482, 0x482, 1⟩,
  ⟨0x58d, 0x58e, 1⟩, ⟨0x60e, 0x60f, 1⟩, ⟨0x6de, 0x6de, 1⟩, ⟨0x6e9, 0x6e9, 1⟩, ⟨0x6fd, 0x6fe, 1⟩,
  ⟨0x7f6, 0x7f6, 1⟩, ⟨0x9fa, 0x9fa, 1⟩, ⟨0xb70, 0xb70, 1⟩, ⟨0xbf3, 0xbf8, 1⟩, ⟨0xbfa, 0xbfa, 1⟩,
  ⟨0xc7f, 0xc7f, 1⟩, ⟨0xd4f, 0xd4f, 1⟩, ⟨0xd79, 0xd79, 1⟩, ⟨0xf01, 0xf03, 1⟩, ⟨0xf13, 0xf13, 1⟩,
  ⟨0xf15, 0xf17, 1⟩, ⟨0xf1a, 0xf1f, 1⟩, ⟨0xf34, 0xf38, 2⟩, ⟨0xfbe, 0xfc5, 1⟩, ⟨0xfc7, 0xfcc, 1⟩,
  ⟨0xfce, 0xfcf, 1⟩, ⟨0xfd5, 0xfd8, 1⟩, ⟨0x109e, 0x109f, 1⟩, ⟨0x1390, 0x1399, 1⟩,
  ⟨0x166d, 0x166d, 1⟩, ⟨0x1940, 0x1940, 1⟩, ⟨0x19de, 0x19ff, 1⟩, ⟨0x1b61, 0x1b6a, 1⟩,
  ⟨0x1b74, 0x1b7c, 1⟩, ⟨0x2100, 0x2101, 1⟩, ⟨0x2103, 0x2106, 1⟩, ⟨0x2108, 0x2109, 1⟩,
  ⟨0x2114, 0x2114, 1⟩, ⟨0x2116, 0x2117, 1⟩, ⟨0x211e, 0x2123, 1⟩, ⟨0x2125, 0x2129, 2⟩,
  ⟨0x212e, 0x212e, 1⟩, ⟨0x213a, 0x213b, 1⟩, ⟨0x214a, 0x214a, 1⟩, ⟨0x214c, 0x214d, 1⟩,
  ⟨0x214f, 0x214f, 1⟩, ⟨0x218a, 0x218b, 1⟩, ⟨0x2195, 0x2199, 1⟩, ⟨0x219c, 0x219f, 1⟩,
  ⟨0x21a1, 0x21a2, 1⟩, ⟨0x21a4, 0x21a5, 1⟩, ⟨0x21a7, 0x21ad, 1⟩, ⟨0x21af, 0x21cd, 1⟩,
  ⟨0x21d0, 0x21d1, 1⟩, ⟨0x21d3, 0x21d3, 1⟩, ⟨0x21d5, 0x21f3, 1⟩, ⟨0x2300, 0x2307, 1⟩,
  ⟨0x230c, 0x231f, 1⟩, ⟨0x2322, 0x2328, 1⟩, ⟨0x232b, 0x237b, 1⟩, ⟨0x237d, 0x239a, 1⟩,
  ⟨0x23b4, 0x23db, 1⟩, ⟨0x23e2, 0x2429, 1⟩, ⟨0x2440, 0x244a, 1⟩, ⟨0x249c, 0x24e9, 1⟩,
  ⟨0x2500, 0x25b6, 1⟩, ⟨0x25b8, 0x25c0, 1⟩, ⟨0x25c2, 0x25f7, 1⟩, ⟨0x2600, 0x266e, 1⟩,
  ⟨0x2670, 0x2767, 1⟩, ⟨0x2794, 0x27bf, 1⟩, ⟨0x2800, 0x28ff, 1⟩, ⟨0x2b00, 0x2b2f, 1⟩,
  ⟨0x2b45, 0x2b46, 1⟩, ⟨0x2b4d, 0x2b73, 1⟩, ⟨0x2b76, 0x2bff, 1⟩, ⟨0x2ce5, 0x2cea, 1⟩,
  ⟨0x2e50, 0x2e51, 1⟩, ⟨0x2e80, 0x2e99, 1⟩, ⟨0x2e9b, 0x2ef3, 1⟩, ⟨0x2f00, 0x2fd5, 1⟩,
  ⟨0x2ff0, 0x2fff, 1⟩, ⟨0x3004, 0x3004, 1⟩, ⟨0x3012, 0x3013, 1⟩, ⟨0x3020, 0x3020, 1⟩,
  ⟨0x3036, 0x3037, 1⟩, ⟨0x303e, 0x303f, 1⟩, ⟨0x3190, 0x3191, 1⟩, ⟨0x3196, 0x319f, 1⟩,
  ⟨0x31c0, 0x31e5, 1⟩, ⟨0x31ef, 0x31ef, 1⟩, ⟨0x3200, 0x321e, 1⟩, ⟨0x322a, 0x3247, 1⟩,
  ⟨0x3250, 0x3250, 1⟩, ⟨0x3260, 0x327f, 1⟩, ⟨0x328a, 0x32b0, 1⟩, ⟨0x32c0, 0x33ff, 1⟩,
  ⟨0x4dc0, 0x4dff, 1⟩, ⟨0xa490, 0xa4c6, 1⟩, ⟨0xa828, 0xa82b, 1⟩, ⟨0xa836, 0xa837, 1⟩,
  ⟨0xa839, 0xa839, 1⟩, ⟨0xaa77, 0xaa79, 1⟩, ⟨0xfbc3, 0xfbd2, 1⟩, ⟨0xfd40, 0xfd4f, 1⟩,
  ⟨0xfd90, 0xfd91, 1⟩, ⟨0xfdc8, 0xfdcf, 1⟩, ⟨0xfdfd, 0xfdff, 1⟩, ⟨0xffe4, 0xffe4, 1⟩,
  ⟨0xffe8, 0xffe8, 1⟩, ⟨0xffed, 0xffee, 1⟩, ⟨0xfffc, 0xfffd, 1⟩, ⟨0x10137, 0x1013f, 1⟩,
  ⟨0x10179, 0x10189, 1⟩, ⟨0x1018c, 0x1018e, 1⟩, ⟨0x10190, 0x1019c, 1⟩, ⟨0x101a0, 0x101a0, 1⟩,
  ⟨0x101d0, 0x101fc, 1⟩, ⟨0x10877, 0x10878, 1⟩, ⟨0x10ac8, 0x10ac8, 1⟩, ⟨0x10ed1, 0x10ed8, 1⟩,
  ⟨0x1173f, 0x1173f, 1⟩, ⟨0x11fd5, 0x11fdc, 1⟩, ⟨0x11fe1, 0x11ff1, 1⟩, ⟨0x16b3c, 0x16b3f, 1⟩,
  ⟨0x16b45, 0x16b45, 1⟩, ⟨0x1bc9c, 0x1bc9c, 1⟩, ⟨0x1cc00, 0x1ccef, 1⟩, ⟨0x1ccfa, 0x1ccfc, 1⟩,
  ⟨0x1cd00, 0x1ceb3, 1⟩, ⟨0x1ceba, 0x1ced0, 1⟩, ⟨0x1cee0, 0x1ceef, 1⟩, ⟨0x1cf50, 0x1cfc3, 1⟩,
  ⟨0x1d000, 0x1d0f5, 1⟩, ⟨0x1d100, 0x1d126, 1⟩, ⟨0x1d129, 0x1d164, 1⟩, ⟨0x1d16a, 0x1d16c, 1⟩,
  ⟨0x1d183, 0x1d184, 1⟩, ⟨0x1d18c, 0x1d1a9, 1⟩, ⟨0x1d1ae, 0x1d1ea, 1⟩, ⟨0x1d200, 0x1d241, 1⟩,
  ⟨0x1d245, 0x1d245, 1⟩, ⟨0x1d300, 0x1d356, 1⟩, ⟨0x1d800, 0x1d9ff, 1⟩, ⟨0x1da37, 0x1da3a, 1⟩,
  ⟨0x1da6d, 0x1da74, 1⟩, ⟨0x1da76, 0x1da83, 1⟩, ⟨0x1da85, 0x1da86, 1⟩, ⟨0x1e14f, 0x1e14f, 1⟩,
  ⟨0x1ecac, 0x1ecac, 1⟩, ⟨0x1ed2e, 0x1ed2e, 1⟩, ⟨0x1f000, 0x1f02b, 1⟩, ⟨0x1f030, 0x1f093, 1⟩,
  ⟨0x1f0a0, 0x1f0ae, 1⟩, ⟨0x1f0b1, 0x1f0bf, 1⟩, ⟨0x1f0c1, 0x1f0cf, 1⟩, ⟨0x1f0d1, 0x1f0f5, 1⟩,
  ⟨0x1f10d, 0x1f1ad, 1⟩, ⟨0x1f1e6, 0x1f202, 1⟩, ⟨0x1f210, 0x1f23b, 1⟩, ⟨0x1f240, 0x1f248, 1⟩,
  ⟨0x1f250, 0x1f251, 1⟩, ⟨0x1f260, 0x1f265, 1⟩, ⟨0x1f300, 0x1f3fa, 1⟩, ⟨0x1f400, 0x1f6d8, 1⟩,
  ⟨0x1f6dc, 0x1f6ec, 1⟩, ⟨0x1f6f0, 0x1f6fc, 1⟩, ⟨0x1f700, 0x1f7d9, 1⟩, ⟨0x1f7e0, 0x1f7eb, 1⟩,
  ⟨0x1f7f0, 0x1f7f0, 1⟩, ⟨0x1f800, 0x1f80b, 1⟩, ⟨0x1f810, 0x1f847, 1⟩, ⟨0x1f850, 0x1f859, 1⟩,
  ⟨0x1f860, 0x1f887, 1⟩, ⟨0x1f890, 0x1f8ad, 1⟩, ⟨0x1f8b0, 0x1f8bb, 1⟩, ⟨0x1f8c0, 0x1f8c1, 1⟩,
  ⟨0x1f900, 0x1fa57, 1⟩, ⟨0x1fa60, 0x1fa6d, 1⟩, ⟨0x1fa70, 0x1fa7c, 1⟩, ⟨0x1fa80, 0x1fa8a, 1⟩,
  ⟨0x1fa8e, 0x1fac6, 1⟩, ⟨0x1fac8, 0x1fac8, 1⟩, ⟨0x1facd, 0x1fadc, 1⟩, ⟨0x1fadf, 0x1faea, 1⟩,
  ⟨0x1faef, 0x1faf8, 1⟩, ⟨0x1fb00, 0x1fb92, 1⟩, ⟨0x1fb94, 0x1fbef, 1⟩, ⟨0x1fbfa, 0x1fbfa, 1⟩]

/-- Spaces. -/
def zsRuns : Array CodeRun := #[
  ⟨0x20, 0x20, 1⟩, ⟨0xa0, 0xa0, 1⟩, ⟨0x1680, 0x1680, 1⟩, ⟨0x2000, 0x200a, 1⟩, ⟨0x202f, 0x202f, 1⟩,
  ⟨0x205f, 0x205f, 1⟩, ⟨0x3000, 0x3000, 1⟩]

/-- The line separator. -/
def zlRuns : Array CodeRun := #[
  ⟨0x2028, 0x2028, 1⟩]

/-- The paragraph separator. -/
def zpRuns : Array CodeRun := #[
  ⟨0x2029, 0x2029, 1⟩]

/-- Control characters. -/
def ccRuns : Array CodeRun := #[
  ⟨0x0, 0x1f, 1⟩, ⟨0x7f, 0x9f, 1⟩]

/-- Formatting characters. -/
def cfRuns : Array CodeRun := #[
  ⟨0xad, 0xad, 1⟩, ⟨0x600, 0x605, 1⟩, ⟨0x61c, 0x61c, 1⟩, ⟨0x6dd, 0x6dd, 1⟩, ⟨0x70f, 0x70f, 1⟩,
  ⟨0x890, 0x891, 1⟩, ⟨0x8e2, 0x8e2, 1⟩, ⟨0x180e, 0x180e, 1⟩, ⟨0x200b, 0x200f, 1⟩,
  ⟨0x202a, 0x202e, 1⟩, ⟨0x2060, 0x2064, 1⟩, ⟨0x2066, 0x206f, 1⟩, ⟨0xfeff, 0xfeff, 1⟩,
  ⟨0xfff9, 0xfffb, 1⟩, ⟨0x110bd, 0x110bd, 1⟩, ⟨0x110cd, 0x110cd, 1⟩, ⟨0x13430, 0x1343f, 1⟩,
  ⟨0x1bca0, 0x1bca3, 1⟩, ⟨0x1d173, 0x1d17a, 1⟩, ⟨0xe0001, 0xe0001, 1⟩, ⟨0xe0020, 0xe007f, 1⟩]

/-- Characters for private use. -/
def coRuns : Array CodeRun := #[
  ⟨0xe000, 0xf8ff, 1⟩, ⟨0xf0000, 0xffffd, 1⟩, ⟨0x100000, 0x10fffd, 1⟩]

end Ceylon.Text.Category
