import LanguageBridge.Text.CodePoints

namespace LanguageBridge.Text

/-! Letter case: where a character goes when it is lower-cased one for one, which characters
have case at all, and which are passed over when the neighbours of a sigma are examined. -/

/-- Every `step`-th code point from `first` to `last` is lower-cased to the code point as far
from `target` as it is from `first`. -/
structure CaseRun where
  first : Nat
  last : Nat
  step : Nat
  target : Nat
deriving DecidableEq, Repr

def caseRuns : List CaseRun :=
  [⟨65, 90, 1, 97⟩, ⟨192, 214, 1, 224⟩, ⟨216, 222, 1, 248⟩, ⟨256, 302, 2, 257⟩, ⟨306, 310, 2, 307⟩,
   ⟨313, 327, 2, 314⟩, ⟨330, 374, 2, 331⟩, ⟨376, 376, 1, 255⟩, ⟨377, 381, 2, 378⟩,
   ⟨385, 385, 1, 595⟩, ⟨386, 388, 2, 387⟩, ⟨390, 390, 1, 596⟩, ⟨391, 391, 1, 392⟩,
   ⟨393, 394, 1, 598⟩, ⟨395, 395, 1, 396⟩, ⟨398, 398, 1, 477⟩, ⟨399, 399, 1, 601⟩,
   ⟨400, 400, 1, 603⟩, ⟨401, 401, 1, 402⟩, ⟨403, 403, 1, 608⟩, ⟨404, 404, 1, 611⟩,
   ⟨406, 406, 1, 617⟩, ⟨407, 407, 1, 616⟩, ⟨408, 408, 1, 409⟩, ⟨412, 412, 1, 623⟩,
   ⟨413, 413, 1, 626⟩, ⟨415, 415, 1, 629⟩, ⟨416, 420, 2, 417⟩, ⟨422, 422, 1, 640⟩,
   ⟨423, 423, 1, 424⟩, ⟨425, 425, 1, 643⟩, ⟨428, 428, 1, 429⟩, ⟨430, 430, 1, 648⟩,
   ⟨431, 431, 1, 432⟩, ⟨433, 434, 1, 650⟩, ⟨435, 437, 2, 436⟩, ⟨439, 439, 1, 658⟩,
   ⟨440, 440, 1, 441⟩, ⟨444, 444, 1, 445⟩, ⟨452, 452, 1, 454⟩, ⟨453, 453, 1, 454⟩,
   ⟨455, 455, 1, 457⟩, ⟨456, 456, 1, 457⟩, ⟨458, 458, 1, 460⟩, ⟨459, 475, 2, 460⟩,
   ⟨478, 494, 2, 479⟩, ⟨497, 497, 1, 499⟩, ⟨498, 500, 2, 499⟩, ⟨502, 502, 1, 405⟩,
   ⟨503, 503, 1, 447⟩, ⟨504, 542, 2, 505⟩, ⟨544, 544, 1, 414⟩, ⟨546, 562, 2, 547⟩,
   ⟨570, 570, 1, 11365⟩, ⟨571, 571, 1, 572⟩, ⟨573, 573, 1, 410⟩, ⟨574, 574, 1, 11366⟩,
   ⟨577, 577, 1, 578⟩, ⟨579, 579, 1, 384⟩, ⟨580, 580, 1, 649⟩, ⟨581, 581, 1, 652⟩,
   ⟨582, 590, 2, 583⟩, ⟨880, 882, 2, 881⟩, ⟨886, 886, 1, 887⟩, ⟨895, 895, 1, 1011⟩,
   ⟨902, 902, 1, 940⟩, ⟨904, 906, 1, 941⟩, ⟨908, 908, 1, 972⟩, ⟨910, 911, 1, 973⟩,
   ⟨913, 929, 1, 945⟩, ⟨931, 939, 1, 963⟩, ⟨975, 975, 1, 983⟩, ⟨984, 1006, 2, 985⟩,
   ⟨1012, 1012, 1, 952⟩, ⟨1015, 1015, 1, 1016⟩, ⟨1017, 1017, 1, 1010⟩, ⟨1018, 1018, 1, 1019⟩,
   ⟨1021, 1023, 1, 891⟩, ⟨1024, 1039, 1, 1104⟩, ⟨1040, 1071, 1, 1072⟩, ⟨1120, 1152, 2, 1121⟩,
   ⟨1162, 1214, 2, 1163⟩, ⟨1216, 1216, 1, 1231⟩, ⟨1217, 1229, 2, 1218⟩, ⟨1232, 1326, 2, 1233⟩,
   ⟨1329, 1366, 1, 1377⟩, ⟨4256, 4293, 1, 11520⟩, ⟨4295, 4295, 1, 11559⟩, ⟨4301, 4301, 1, 11565⟩,
   ⟨5024, 5103, 1, 43888⟩, ⟨5104, 5109, 1, 5112⟩, ⟨7312, 7354, 1, 4304⟩, ⟨7357, 7359, 1, 4349⟩,
   ⟨7680, 7828, 2, 7681⟩, ⟨7838, 7838, 1, 223⟩, ⟨7840, 7934, 2, 7841⟩, ⟨7944, 7951, 1, 7936⟩,
   ⟨7960, 7965, 1, 7952⟩, ⟨7976, 7983, 1, 7968⟩, ⟨7992, 7999, 1, 7984⟩, ⟨8008, 8013, 1, 8000⟩,
   ⟨8025, 8031, 2, 8017⟩, ⟨8040, 8047, 1, 8032⟩, ⟨8072, 8079, 1, 8064⟩, ⟨8088, 8095, 1, 8080⟩,
   ⟨8104, 8111, 1, 8096⟩, ⟨8120, 8121, 1, 8112⟩, ⟨8122, 8123, 1, 8048⟩, ⟨8124, 8124, 1, 8115⟩,
   ⟨8136, 8139, 1, 8050⟩, ⟨8140, 8140, 1, 8131⟩, ⟨8152, 8153, 1, 8144⟩, ⟨8154, 8155, 1, 8054⟩,
   ⟨8168, 8169, 1, 8160⟩, ⟨8170, 8171, 1, 8058⟩, ⟨8172, 8172, 1, 8165⟩, ⟨8184, 8185, 1, 8056⟩,
   ⟨8186, 8187, 1, 8060⟩, ⟨8188, 8188, 1, 8179⟩, ⟨8486, 8486, 1, 969⟩, ⟨8490, 8490, 1, 107⟩,
   ⟨8491, 8491, 1, 229⟩, ⟨8498, 8498, 1, 8526⟩, ⟨8544, 8559, 1, 8560⟩, ⟨8579, 8579, 1, 8580⟩,
   ⟨9398, 9423, 1, 9424⟩, ⟨11264, 11311, 1, 11312⟩, ⟨11360, 11360, 1, 11361⟩,
   ⟨11362, 11362, 1, 619⟩, ⟨11363, 11363, 1, 7549⟩, ⟨11364, 11364, 1, 637⟩,
   ⟨11367, 11371, 2, 11368⟩, ⟨11373, 11373, 1, 593⟩, ⟨11374, 11374, 1, 625⟩, ⟨11375, 11375, 1, 592⟩,
   ⟨11376, 11376, 1, 594⟩, ⟨11378, 11378, 1, 11379⟩, ⟨11381, 11381, 1, 11382⟩,
   ⟨11390, 11391, 1, 575⟩, ⟨11392, 11490, 2, 11393⟩, ⟨11499, 11501, 2, 11500⟩,
   ⟨11506, 11506, 1, 11507⟩, ⟨42560, 42604, 2, 42561⟩, ⟨42624, 42650, 2, 42625⟩,
   ⟨42786, 42798, 2, 42787⟩, ⟨42802, 42862, 2, 42803⟩, ⟨42873, 42875, 2, 42874⟩,
   ⟨42877, 42877, 1, 7545⟩, ⟨42878, 42886, 2, 42879⟩, ⟨42891, 42891, 1, 42892⟩,
   ⟨42893, 42893, 1, 613⟩, ⟨42896, 42898, 2, 42897⟩, ⟨42902, 42920, 2, 42903⟩,
   ⟨42922, 42922, 1, 614⟩, ⟨42923, 42923, 1, 604⟩, ⟨42924, 42924, 1, 609⟩, ⟨42925, 42925, 1, 620⟩,
   ⟨42926, 42926, 1, 618⟩, ⟨42928, 42928, 1, 670⟩, ⟨42929, 42929, 1, 647⟩, ⟨42930, 42930, 1, 669⟩,
   ⟨42931, 42931, 1, 43859⟩, ⟨42932, 42946, 2, 42933⟩, ⟨42948, 42948, 1, 42900⟩,
   ⟨42949, 42949, 1, 642⟩, ⟨42950, 42950, 1, 7566⟩, ⟨42951, 42953, 2, 42952⟩,
   ⟨42960, 42960, 1, 42961⟩, ⟨42966, 42968, 2, 42967⟩, ⟨42997, 42997, 1, 42998⟩,
   ⟨65313, 65338, 1, 65345⟩, ⟨66560, 66599, 1, 66600⟩, ⟨66736, 66771, 1, 66776⟩,
   ⟨66928, 66938, 1, 66967⟩, ⟨66940, 66954, 1, 66979⟩, ⟨66956, 66962, 1, 66995⟩,
   ⟨66964, 66965, 1, 67003⟩, ⟨68736, 68786, 1, 68800⟩, ⟨71840, 71871, 1, 71872⟩,
   ⟨93760, 93791, 1, 93792⟩, ⟨125184, 125217, 1, 125218⟩]

/-- Characters with an upper or lower form, those of `caseIgnorableCodePoints` left out. -/
def casedCodePoints : CodePoints :=
  [(65, 26), (6, 26), (47, 1), (10, 1), (4, 1), (5, 23), (1, 31), (1, 195), (1, 4), (4, 208),
   (1, 27), (192, 4), (2, 2), (3, 3), (1, 1), (6, 1), (1, 3), (1, 1), (1, 20), (1, 83), (1, 139),
   (8, 166), (1, 38), (9, 41), (2839, 38), (1, 1), (5, 1), (2, 43), (2, 3), (672, 86), (2, 6),
   (2178, 9), (7, 43), (2, 3), (64, 44), (63, 13), (1, 34), (101, 278), (2, 6), (2, 38), (2, 6),
   (2, 8), (1, 1), (1, 1), (1, 1), (1, 31), (2, 53), (1, 7), (1, 1), (3, 3), (1, 7), (3, 4), (2, 6),
   (4, 13), (5, 3), (1, 7), (261, 1), (4, 1), (2, 10), (1, 1), (3, 5), (6, 1), (1, 1), (1, 1),
   (1, 4), (1, 6), (4, 1), (2, 4), (5, 5), (4, 1), (17, 32), (3, 2), (817, 52), (1814, 124),
   (2, 103), (6, 4), (3, 2), (12, 38), (1, 1), (5, 1), (30994, 46), (18, 28), (134, 78), (1, 23),
   (3, 4), (1, 59), (5, 2), (1, 1), (1, 5), (27, 2), (3, 1), (821, 43), (5, 9), (7, 80), (20288, 7),
   (12, 5), (1033, 26), (6, 26), (1189, 80), (96, 36), (4, 36), (116, 11), (1, 15), (1, 7), (1, 2),
   (1, 11), (1, 15), (1, 7), (1, 2), (1731, 51), (13, 51), (2989, 64), (21856, 64), (25984, 85),
   (1, 71), (1, 2), (2, 1), (2, 2), (2, 4), (1, 12), (1, 1), (1, 7), (1, 65), (1, 4), (2, 8),
   (1, 7), (1, 28), (1, 4), (1, 5), (1, 1), (3, 7), (1, 340), (2, 25), (1, 25), (1, 31), (1, 25),
   (1, 31), (1, 25), (1, 31), (1, 25), (1, 31), (1, 25), (1, 8), (1844, 10), (1, 20), (2529, 68),
   (2028, 26), (6, 26), (6, 26)]

def caseIgnorableCodePoints : CodePoints :=
  [(39, 1), (6, 1), (11, 1), (35, 1), (1, 1), (71, 1), (4, 1), (1, 1), (4, 1), (2, 2), (503, 192),
   (4, 2), (4, 1), (9, 2), (1, 1), (251, 7), (207, 1), (5, 1), (49, 45), (1, 1), (1, 2), (1, 2),
   (1, 1), (44, 1), (11, 6), (10, 11), (1, 1), (35, 1), (10, 21), (16, 1), (101, 8), (1, 10),
   (1, 4), (33, 1), (1, 1), (30, 27), (91, 11), (58, 11), (4, 1), (2, 1), (24, 24), (43, 3),
   (44, 1), (7, 2), (6, 8), (41, 58), (55, 1), (1, 1), (4, 8), (4, 1), (3, 7), (10, 2), (13, 1),
   (15, 1), (58, 1), (4, 4), (8, 1), (20, 2), (26, 1), (2, 2), (57, 1), (4, 2), (4, 2), (2, 3),
   (3, 1), (30, 2), (3, 1), (11, 2), (57, 1), (4, 5), (1, 2), (4, 1), (20, 2), (22, 6), (1, 1),
   (58, 1), (2, 1), (1, 4), (8, 1), (7, 2), (11, 2), (30, 1), (61, 1), (12, 1), (50, 1), (3, 1),
   (55, 1), (1, 3), (5, 3), (1, 4), (7, 2), (11, 2), (29, 1), (58, 1), (2, 1), (6, 1), (5, 2),
   (20, 2), (28, 2), (57, 2), (4, 4), (8, 1), (20, 2), (29, 1), (72, 1), (7, 3), (1, 1), (90, 1),
   (2, 7), (11, 9), (98, 1), (2, 9), (9, 1), (1, 6), (74, 2), (27, 1), (1, 1), (1, 1), (55, 14),
   (1, 5), (1, 2), (5, 11), (1, 36), (9, 1), (102, 4), (1, 6), (1, 2), (2, 2), (25, 2), (4, 3),
   (16, 4), (13, 1), (2, 2), (6, 1), (15, 1), (94, 1), (608, 3), (946, 3), (29, 2), (30, 2),
   (30, 2), (64, 2), (1, 7), (8, 1), (2, 11), (3, 1), (5, 1), (45, 5), (51, 1), (65, 2), (34, 1),
   (118, 3), (4, 2), (9, 1), (6, 3), (219, 2), (2, 1), (58, 1), (1, 7), (1, 1), (1, 1), (2, 8),
   (6, 10), (2, 1), (39, 1), (8, 31), (49, 4), (48, 1), (1, 5), (1, 1), (5, 1), (40, 9), (12, 2),
   (32, 4), (2, 2), (1, 3), (56, 1), (1, 2), (3, 1), (1, 3), (58, 8), (2, 2), (64, 6), (82, 3),
   (1, 13), (1, 7), (4, 1), (6, 1), (3, 2), (50, 63), (13, 1), (34, 101), (445, 1), (1, 3), (11, 3),
   (13, 3), (13, 3), (13, 2), (12, 5), (8, 2), (10, 1), (2, 1), (2, 5), (49, 5), (1, 10), (1, 1),
   (13, 1), (16, 13), (51, 33), (2955, 2), (113, 3), (125, 1), (15, 1), (96, 32), (47, 1), (469, 1),
   (36, 4), (3, 5), (5, 1), (93, 6), (93, 3), (28438, 1), (1250, 6), (270, 1), (98, 4), (1, 10),
   (1, 1), (28, 4), (80, 2), (14, 34), (78, 1), (23, 3), (103, 3), (3, 2), (8, 1), (3, 1), (4, 1),
   (25, 2), (5, 1), (151, 2), (26, 18), (13, 1), (38, 8), (25, 11), (46, 3), (48, 1), (2, 4),
   (2, 2), (17, 1), (21, 2), (66, 6), (2, 2), (2, 2), (12, 1), (8, 1), (35, 1), (11, 1), (51, 1),
   (1, 3), (2, 2), (5, 2), (1, 1), (27, 1), (14, 2), (5, 2), (1, 1), (100, 5), (9, 3), (121, 1),
   (2, 1), (4, 1), (20272, 1), (147, 17), (573, 16), (3, 1), (12, 16), (34, 1), (2, 1), (169, 1),
   (7, 1), (6, 1), (11, 1), (35, 1), (1, 1), (47, 1), (45, 2), (67, 1), (21, 3), (513, 1), (226, 1),
   (149, 5), (1029, 6), (1, 42), (1, 9), (582, 3), (1, 2), (5, 4), (40, 3), (4, 1), (165, 2),
   (573, 4), (387, 2), (153, 11), (49, 4), (123, 1), (54, 15), (41, 1), (2, 2), (10, 3), (49, 4),
   (2, 2), (2, 1), (4, 1), (10, 1), (50, 3), (36, 5), (1, 8), (62, 1), (12, 2), (52, 9), (10, 4),
   (2, 1), (95, 3), (2, 1), (1, 2), (6, 1), (160, 1), (3, 8), (21, 2), (57, 2), (3, 1), (37, 7),
   (3, 5), (195, 8), (2, 3), (1, 1), (23, 1), (84, 6), (1, 1), (4, 2), (1, 2), (238, 4), (6, 2),
   (1, 2), (27, 2), (85, 8), (2, 1), (1, 2), (106, 1), (1, 1), (2, 6), (1, 1), (101, 3), (2, 4),
   (1, 5), (259, 9), (1, 2), (256, 2), (1, 1), (4, 1), (144, 4), (2, 2), (4, 1), (32, 10), (40, 6),
   (2, 4), (8, 1), (9, 6), (2, 3), (46, 13), (1, 2), (406, 7), (1, 6), (1, 1), (82, 22), (2, 7),
   (1, 2), (1, 2), (122, 6), (3, 1), (1, 2), (1, 7), (1, 1), (72, 2), (3, 1), (1, 1), (347, 2),
   (5435, 9), (14007, 5), (59, 7), (9, 4), (1035, 1), (63, 17), (64, 2), (1, 2), (16395, 4), (1, 7),
   (1, 2), (3230, 2), (1, 4), (4700, 46), (2, 23), (544, 3), (9, 16), (2, 7), (30, 4), (148, 3),
   (1979, 55), (4, 50), (8, 1), (14, 1), (22, 5), (1, 15), (1360, 7), (1, 17), (2, 7), (1, 2),
   (1, 5), (261, 14), (368, 1), (61, 4), (1504, 7), (109, 8), (2735, 5), (789505, 1), (30, 96),
   (128, 240)]

end LanguageBridge.Text
