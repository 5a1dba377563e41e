/-!
# What is left of a character in ASCII

The table behind `Slug`: for every ASCII text that the compatibility decomposition of a character
leaves once its other characters are dropped, the characters that leave it.
-/

namespace Galley.Text.Slug

/-- Texts that begin with a blank or a sign, with the characters that leave them. -/
def signRemains : List (String × List Nat) := [
  (" ", [160, 168, 175, 180, 184, 728, 729, 730, 731, 732, 733, 890, 900, 901, 8125, 8127, 8128,
    8129, 8141, 8142, 8143, 8157, 8158, 8159, 8173, 8174, 8189, 8190, 8192, 8193, 8194, 8195,
    8196, 8197, 8198, 8199, 8200, 8201, 8202, 8215, 8239, 8254, 8287, 12288, 12443, 12444,
    64606, 64607, 64608, 64609, 64610, 64611, 65019, 65097, 65098, 65099, 65100, 65136, 65138,
    65140, 65142, 65144, 65146, 65148, 65150, 65507]),
  ("   ", [65018]),
  ("!", [65045, 65111, 65281]),
  ("!!", [8252]),
  ("!?", [8265]),
  ("\"", [65282]),
  ("#", [65119, 65283]),
  ("$", [65129, 65284]),
  ("%", [65130, 65285]),
  ("&", [65120, 65286]),
  ("'", [65287]),
  ("(", [8317, 8333, 65077, 65113, 65288]),
  ("()", [12800, 12801, 12802, 12803, 12804, 12805, 12806, 12807, 12808, 12809, 12810, 12811,
    12812, 12813, 12814, 12815, 12816, 12817, 12818, 12819, 12820, 12821, 12822, 12823, 12824,
    12825, 12826, 12827, 12828, 12829, 12830, 12832, 12833, 12834, 12835, 12836, 12837, 12838,
    12839, 12840, 12841, 12842, 12843, 12844, 12845, 12846, 12847, 12848, 12849, 12850, 12851,
    12852, 12853, 12854, 12855, 12856, 12857, 12858, 12859, 12860, 12861, 12862, 12863, 12864,
    12865, 12866, 12867]),
  ("(1)", [9332]),
  ("(10)", [9341]),
  ("(11)", [9342]),
  ("(12)", [9343]),
  ("(13)", [9344]),
  ("(14)", [9345]),
  ("(15)", [9346]),
  ("(16)", [9347]),
  ("(17)", [9348]),
  ("(18)", [9349]),
  ("(19)", [9350]),
  ("(2)", [9333]),
  ("(20)", [9351]),
  ("(3)", [9334]),
  ("(4)", [9335]),
  ("(5)", [9336]),
  ("(6)", [9337]),
  ("(7)", [9338]),
  ("(8)", [9339]),
  ("(9)", [9340]),
  ("(A)", [127248]),
  ("(B)", [127249]),
  ("(C)", [127250]),
  ("(D)", [127251]),
  ("(E)", [127252]),
  ("(F)", [127253]),
  ("(G)", [127254]),
  ("(H)", [127255]),
  ("(I)", [127256]),
  ("(J)", [127257]),
  ("(K)", [127258]),
  ("(L)", [127259]),
  ("(M)", [127260]),
  ("(N)", [127261]),
  ("(O)", [127262]),
  ("(P)", [127263]),
  ("(Q)", [127264]),
  ("(R)", [127265]),
  ("(S)", [127266]),
  ("(T)", [127267]),
  ("(U)", [127268]),
  ("(V)", [127269]),
  ("(W)", [127270]),
  ("(X)", [127271]),
  ("(Y)", [127272]),
  ("(Z)", [127273]),
  ("(a)", [9372]),
  ("(b)", [9373]),
  ("(c)", [9374]),
  ("(d)", [9375]),
  ("(e)", [9376]),
  ("(f)", [9377]),
  ("(g)", [9378]),
  ("(h)", [9379]),
  ("(i)", [9380]),
  ("(j)", [9381]),
  ("(k)", [9382]),
  ("(l)", [9383]),
  ("(m)", [9384]),
  ("(n)", [9385]),
  ("(o)", [9386]),
  ("(p)", [9387]),
  ("(q)", [9388]),
  ("(r)", [9389]),
  ("(s)", [9390]),
  ("(t)", [9391]),
  ("(u)", [9392]),
  ("(v)", [9393]),
  ("(w)", [9394]),
  ("(x)", [9395]),
  ("(y)", [9396]),
  ("(z)", [9397]),
  (")", [8318, 8334, 65078, 65114, 65289]),
  ("*", [65121, 65290]),
  ("+", [8314, 8330, 64297, 65122, 65291]),
  (",", [65040, 65104, 65292]),
  ("-", [65123, 65293]),
  (".", [8228, 65106, 65294]),
  ("..", [8229, 65072]),
  ("...", [8230, 65049]),
  ("/", [65295]),
  (":", [65043, 65109, 65306]),
  ("::=", [10868]),
  (";", [894, 65044, 65108, 65307]),
  ("<", [8814, 65124, 65308]),
  ("=", [8316, 8332, 8800, 65126, 65309]),
  ("==", [10869]),
  ("===", [10870]),
  (">", [8815, 65125, 65310]),
  ("?", [65046, 65110, 65311]),
  ("?!", [8264]),
  ("??", [8263]),
  ("@", [65131, 65312]),
  ("[", [65095, 65339]),
  ("\\", [65128, 65340]),
  ("]", [65096, 65341]),
  ("^", [65342]),
  ("_", [65075, 65076, 65101, 65102, 65103, 65343]),
  ("`", [8175, 65344]),
  ("\x7b", [65079, 65115, 65371]),
  ("|", [65372]),
  ("\x7d", [65080, 65116, 65373]),
  ("~", [65374])]

/-- Texts that begin with a digit, with the characters that leave them. -/
def digitRemains : List (String × List Nat) := [
  ("0", [8304, 8320, 9450, 13144, 65296, 120782, 120792, 120802, 120812, 120822, 130032]),
  ("0,", [127233]),
  ("0.", [127232]),
  ("03", [8585]),
  ("1", [185, 8321, 8543, 9312, 12992, 13145, 13280, 65297, 120783, 120793, 120803, 120813,
    120823, 130033]),
  ("1,", [127234]),
  ("1.", [9352]),
  ("10", [9321, 13001, 13154, 13289]),
  ("10.", [9361]),
  ("11", [9322, 13002, 13155, 13290]),
  ("11.", [9362]),
  ("110", [8530]),
  ("12", [189, 9323, 13003, 13156, 13291]),
  ("12.", [9363]),
  ("13", [8531, 9324, 13157, 13292]),
  ("13.", [9364]),
  ("14", [188, 9325, 13158, 13293]),
  ("14.", [9365]),
  ("15", [8533, 9326, 13159, 13294]),
  ("15.", [9366]),
  ("16", [8537, 9327, 13160, 13295]),
  ("16.", [9367]),
  ("17", [8528, 9328, 13161, 13296]),
  ("17.", [9368]),
  ("18", [8539, 9329, 13162, 13297]),
  ("18.", [9369]),
  ("19", [8529, 9330, 13163, 13298]),
  ("19.", [9370]),
  ("2", [178, 8322, 9313, 12993, 13146, 13281, 65298, 120784, 120794, 120804, 120814, 120824,
    130034]),
  ("2,", [127235]),
  ("2.", [9353]),
  ("20", [9331, 13164, 13299]),
  ("20.", [9371]),
  ("21", [12881, 13165, 13300]),
  ("22", [12882, 13166, 13301]),
  ("23", [8532, 12883, 13167, 13302]),
  ("24", [12884, 13168, 13303]),
  ("25", [8534, 12885, 13304]),
  ("26", [12886, 13305]),
  ("27", [12887, 13306]),
  ("28", [12888, 13307]),
  ("29", [12889, 13308]),
  ("3", [179, 8323, 9314, 12994, 13147, 13282, 65299, 120785, 120795, 120805, 120815, 120825,
    130035]),
  ("3,", [127236]),
  ("3.", [9354]),
  ("30", [12890, 13309]),
  ("31", [12891, 13310]),
  ("32", [12892]),
  ("33", [12893]),
  ("34", [190, 12894]),
  ("35", [8535, 12895]),
  ("36", [12977]),
  ("37", [12978]),
  ("38", [8540, 12979]),
  ("39", [12980]),
  ("4", [8308, 8324, 9315, 12995, 13148, 13283, 65300, 120786, 120796, 120806, 120816, 120826,
    130036]),
  ("4,", [127237]),
  ("4.", [9355]),
  ("40", [12981]),
  ("41", [12982]),
  ("42", [12983]),
  ("43", [12984]),
  ("44", [12985]),
  ("45", [8536, 12986]),
  ("46", [12987]),
  ("47", [12988]),
  ("48", [12989]),
  ("49", [12990]),
  ("5", [8309, 8325, 9316, 12996, 13149, 13284, 65301, 120787, 120797, 120807, 120817, 120827,
    130037]),
  ("5,", [127238]),
  ("5.", [9356]),
  ("50", [12991]),
  ("56", [8538]),
  ("58", [8541]),
  ("6", [8310, 8326, 9317, 12997, 13150, 13285, 65302, 120788, 120798, 120808, 120818, 120828,
    130038]),
  ("6,", [127239]),
  ("6.", [9357]),
  ("7", [8311, 8327, 9318, 12998, 13151, 13286, 65303, 120789, 120799, 120809, 120819, 120829,
    130039]),
  ("7,", [127240]),
  ("7.", [9358]),
  ("78", [8542]),
  ("8", [8312, 8328, 9319, 12999, 13152, 13287, 65304, 120790, 120800, 120810, 120820, 120830,
    130040]),
  ("8,", [127241]),
  ("8.", [9359]),
  ("9", [8313, 8329, 9320, 13000, 13153, 13288, 65305, 120791, 120801, 120811, 120821, 120831,
    130041]),
  ("9,", [127242]),
  ("9.", [9360])]

/-- Texts that begin with a capital letter, with the characters that leave them. -/
def capitalRemains : List (String × List Nat) := [
  ("A", [192, 193, 194, 195, 196, 197, 256, 258, 260, 461, 478, 480, 506, 512, 514, 550, 7468,
    7680, 7840, 7842, 7844, 7846, 7848, 7850, 7852, 7854, 7856, 7858, 7860, 7862, 8491, 9398,
    13186, 65313, 119808, 119860, 119912, 119964, 120016, 120068, 120120, 120172, 120224,
    120276, 120328, 120380, 120432, 127280]),
  ("AU", [13171]),
  ("Am", [13279]),
  ("B", [7470, 7682, 7684, 7686, 8492, 9399, 65314, 119809, 119861, 119913, 120017, 120069,
    120121, 120173, 120225, 120277, 120329, 120381, 120433, 127281]),
  ("Bq", [13251]),
  ("C", [199, 262, 264, 266, 268, 7688, 8450, 8451, 8493, 8557, 9400, 42994, 65315, 119810,
    119862, 119914, 119966, 120018, 120174, 120226, 120278, 120330, 120382, 120434, 127275,
    127282]),
  ("CD", [127277]),
  ("Ckg", [13254]),
  ("Co.", [13255]),
  ("D", [270, 7472, 7690, 7692, 7694, 7696, 7698, 8517, 8558, 9401, 65316, 119811, 119863,
    119915, 119967, 120019, 120071, 120123, 120175, 120227, 120279, 120331, 120383, 120435,
    127283]),
  ("DJ", [127376]),
  ("DZ", [452, 497]),
  ("Dz", [453, 498]),
  ("E", [200, 201, 202, 203, 274, 276, 278, 280, 282, 516, 518, 552, 7473, 7700, 7702, 7704,
    7706, 7708, 7864, 7866, 7868, 7870, 7872, 7874, 7876, 7878, 8496, 9402, 65317, 119812,
    119864, 119916, 120020, 120072, 120124, 120176, 120228, 120280, 120332, 120384, 120436,
    127284]),
  ("F", [7710, 8457, 8497, 9403, 13196, 42995, 65318, 119813, 119865, 119917, 120021, 120073,
    120125, 120177, 120229, 120281, 120333, 120385, 120437, 127285]),
  ("FAX", [8507]),
  ("G", [284, 286, 288, 290, 486, 500, 7475, 7712, 9404, 65319, 119814, 119866, 119918, 119970,
    120022, 120074, 120126, 120178, 120230, 120282, 120334, 120386, 120438, 127286]),
  ("GB", [13191]),
  ("GHz", [13203]),
  ("GPa", [13228]),
  ("Gy", [13257]),
  ("H", [292, 542, 7476, 7714, 7716, 7718, 7720, 7722, 8459, 8460, 8461, 9405, 65320, 119815,
    119867, 119919, 120023, 120179, 120231, 120283, 120335, 120387, 120439, 127287]),
  ("HP", [13259]),
  ("HV", [127306]),
  ("Hg", [13004]),
  ("Hz", [13200]),
  ("I", [204, 205, 206, 207, 296, 298, 300, 302, 304, 463, 520, 522, 7477, 7724, 7726, 7880,
    7882, 8464, 8465, 8544, 9406, 65321, 119816, 119868, 119920, 120024, 120128, 120180, 120232,
    120284, 120336, 120388, 120440, 127288]),
  ("II", [8545]),
  ("III", [8546]),
  ("IJ", [306]),
  ("IU", [13178]),
  ("IV", [8547]),
  ("IX", [8552]),
  ("J", [308, 7478, 9407, 65322, 119817, 119869, 119921, 119973, 120025, 120077, 120129, 120181,
    120233, 120285, 120337, 120389, 120441, 127289]),
  ("K", [310, 488, 7479, 7728, 7730, 7732, 8490, 9408, 65323, 119818, 119870, 119922, 119974,
    120026, 120078, 120130, 120182, 120234, 120286, 120338, 120390, 120442, 127290]),
  ("KB", [13189]),
  ("KK", [13261]),
  ("KM", [13262]),
  ("L", [313, 315, 317, 319, 7480, 7734, 7736, 7738, 7740, 8466, 8556, 9409, 65324, 119819,
    119871, 119923, 120027, 120079, 120131, 120183, 120235, 120287, 120339, 120391, 120443,
    127291]),
  ("LJ", [455]),
  ("LTD", [13007]),
  ("Lj", [456]),
  ("M", [7481, 7742, 7744, 7746, 8499, 8559, 9410, 13249, 65325, 119820, 119872, 119924, 120028,
    120080, 120132, 120184, 120236, 120288, 120340, 120392, 120444, 127292]),
  ("MB", [13190]),
  ("MC", [127338]),
  ("MD", [127339]),
  ("MHz", [13202]),
  ("MPa", [13227]),
  ("MR", [127340]),
  ("MV", [13241, 127307]),
  ("MW", [13247]),
  ("N", [209, 323, 325, 327, 504, 7482, 7748, 7750, 7752, 7754, 8469, 9411, 65326, 119821,
    119873, 119925, 119977, 120029, 120081, 120185, 120237, 120289, 120341, 120393, 120445,
    127293]),
  ("NJ", [458]),
  ("Nj", [459]),
  ("No", [8470]),
  ("O", [210, 211, 212, 213, 214, 332, 334, 336, 416, 465, 490, 492, 524, 526, 554, 556, 558,
    560, 7484, 7756, 7758, 7760, 7762, 7884, 7886, 7888, 7890, 7892, 7894, 7896, 7898, 7900,
    7902, 7904, 7906, 9412, 65327, 119822, 119874, 119926, 119978, 120030, 120082, 120134,
    120186, 120238, 120290, 120342, 120394, 120446, 127294]),
  ("P", [7486, 7764, 7766, 8473, 9413, 65328, 119823, 119875, 119927, 119979, 120031, 120083,
    120187, 120239, 120291, 120343, 120395, 120447, 127295]),
  ("PH", [13271]),
  ("PPM", [13273]),
  ("PPV", [127310]),
  ("PR", [13274]),
  ("PTE", [12880]),
  ("Pa", [13225]),
  ("Q", [8474, 9414, 42996, 65329, 119824, 119876, 119928, 119980, 120032, 120084, 120188,
    120240, 120292, 120344, 120396, 120448, 127296]),
  ("R", [340, 342, 344, 528, 530, 7487, 7768, 7770, 7772, 7774, 8475, 8476, 8477, 9415, 65330,
    119825, 119877, 119929, 120033, 120189, 120241, 120293, 120345, 120397, 120449, 127276,
    127297]),
  ("Rs", [8360]),
  ("S", [346, 348, 350, 352, 536, 7776, 7778, 7780, 7782, 7784, 9416, 65331, 119826, 119878,
    119930, 119982, 120034, 120086, 120138, 120190, 120242, 120294, 120346, 120398, 120450,
    127274, 127298]),
  ("SD", [127308]),
  ("SM", [8480]),
  ("SS", [127309]),
  ("Sv", [13276]),
  ("T", [354, 356, 538, 7488, 7786, 7788, 7790, 7792, 9417, 65332, 119827, 119879, 119931,
    119983, 120035, 120087, 120139, 120191, 120243, 120295, 120347, 120399, 120451, 127299]),
  ("TEL", [8481]),
  ("THz", [13204]),
  ("TM", [8482]),
  ("U", [217, 218, 219, 220, 360, 362, 364, 366, 368, 370, 431, 467, 469, 471, 473, 475, 532,
    534, 7489, 7794, 7796, 7798, 7800, 7802, 7908, 7910, 7912, 7914, 7916, 7918, 7920, 9418,
    65333, 119828, 119880, 119932, 119984, 120036, 120088, 120140, 120192, 120244, 120296,
    120348, 120400, 120452, 127300]),
  ("V", [7804, 7806, 8548, 9419, 11389, 13238, 65334, 119829, 119881, 119933, 119985, 120037,
    120089, 120141, 120193, 120245, 120297, 120349, 120401, 120453, 127301]),
  ("VI", [8549]),
  ("VII", [8550]),
  ("VIII", [8551]),
  ("Vm", [13278]),
  ("W", [372, 7490, 7808, 7810, 7812, 7814, 7816, 9420, 13244, 65335, 119830, 119882, 119934,
    119986, 120038, 120090, 120142, 120194, 120246, 120298, 120350, 120402, 120454, 127302]),
  ("WC", [127311]),
  ("WZ", [127278]),
  ("Wb", [13277]),
  ("X", [7818, 7820, 8553, 9421, 65336, 119831, 119883, 119935, 119987, 120039, 120091, 120143,
    120195, 120247, 120299, 120351, 120403, 120455, 127303]),
  ("XI", [8554]),
  ("XII", [8555]),
  ("Y", [221, 374, 376, 562, 7822, 7922, 7924, 7926, 7928, 9422, 65337, 119832, 119884, 119936,
    119988, 120040, 120092, 120144, 120196, 120248, 120300, 120352, 120404, 120456, 127304]),
  ("Z", [377, 379, 381, 7824, 7826, 7828, 8484, 8488, 9423, 65338, 119833, 119885, 119937,
    119989, 120041, 120197, 120249, 120301, 120353, 120405, 120457, 127305])]

/-- Texts that begin with a small letter, with the characters that leave them. -/
def letterRemains : List (String × List Nat) := [
  ("a", [170, 224, 225, 226, 227, 228, 229, 257, 259, 261, 462, 479, 481, 507, 513, 515, 551,
    7491, 7681, 7834, 7841, 7843, 7845, 7847, 7849, 7851, 7853, 7855, 7857, 7859, 7861, 7863,
    8336, 9424, 65345, 119834, 119886, 119938, 119990, 120042, 120094, 120146, 120198, 120250,
    120302, 120354, 120406, 120458]),
  ("a.m.", [13250]),
  ("a/c", [8448]),
  ("a/s", [8449]),
  ("b", [7495, 7683, 7685, 7687, 9425, 65346, 119835, 119887, 119939, 119991, 120043, 120095,
    120147, 120199, 120251, 120303, 120355, 120407, 120459]),
  ("bar", [13172]),
  ("c", [231, 263, 265, 267, 269, 7580, 7689, 8573, 9426, 65347, 119836, 119888, 119940, 119992,
    120044, 120096, 120148, 120200, 120252, 120304, 120356, 120408, 120460]),
  ("c/o", [8453]),
  ("c/u", [8454]),
  ("cal", [13192]),
  ("cc", [13252]),
  ("cd", [13253]),
  ("cm", [13213]),
  ("cm2", [13216]),
  ("cm3", [13220]),
  ("d", [271, 7496, 7691, 7693, 7695, 7697, 7699, 8518, 8574, 9427, 65348, 119837, 119889,
    119941, 119993, 120045, 120097, 120149, 120201, 120253, 120305, 120357, 120409, 120461]),
  ("dB", [13256]),
  ("da", [13170]),
  ("dl", [13207]),
  ("dm", [13175]),
  ("dm2", [13176]),
  ("dm3", [13177]),
  ("dz", [454, 499]),
  ("e", [232, 233, 234, 235, 275, 277, 279, 281, 283, 517, 519, 553, 7497, 7701, 7703, 7705,
    7707, 7709, 7865, 7867, 7869, 7871, 7873, 7875, 7877, 7879, 8337, 8495, 8519, 9428, 65349,
    119838, 119890, 119942, 120046, 120098, 120150, 120202, 120254, 120306, 120358, 120410,
    120462]),
  ("eV", [13006]),
  ("erg", [13005]),
  ("f", [7584, 7711, 9429, 65350, 119839, 119891, 119943, 119995, 120047, 120099, 120151,
    120203, 120255, 120307, 120359, 120411, 120463]),
  ("ff", [64256]),
  ("ffi", [64259]),
  ("ffl", [64260]),
  ("fi", [64257]),
  ("fl", [64258]),
  ("fm", [13209]),
  ("g", [285, 287, 289, 291, 487, 501, 7501, 7713, 8458, 9430, 13197, 65351, 119840, 119892,
    119944, 120048, 120100, 120152, 120204, 120256, 120308, 120360, 120412, 120464]),
  ("gal", [13311]),
  ("h", [293, 543, 688, 7715, 7717, 7719, 7721, 7723, 7830, 8341, 8462, 9431, 65352, 119841,
    119945, 119997, 120049, 120101, 120153, 120205, 120257, 120309, 120361, 120413, 120465]),
  ("hPa", [13169]),
  ("ha", [13258]),
  ("i", [236, 237, 238, 239, 297, 299, 301, 303, 464, 521, 523, 7522, 7725, 7727, 7881, 7883,
    8305, 8505, 8520, 8560, 9432, 65353, 119842, 119894, 119946, 119998, 120050, 120102, 120154,
    120206, 120258, 120310, 120362, 120414, 120466]),
  ("ii", [8561]),
  ("iii", [8562]),
  ("ij", [307]),
  ("in", [13260]),
  ("iv", [8563]),
  ("ix", [8568]),
  ("j", [309, 496, 690, 8521, 9433, 11388, 65354, 119843, 119895, 119947, 119999, 120051,
    120103, 120155, 120207, 120259, 120311, 120363, 120415, 120467]),
  ("k", [311, 489, 7503, 7729, 7731, 7733, 8342, 9434, 13248, 65355, 119844, 119896, 119948,
    120000, 120052, 120104, 120156, 120208, 120260, 120312, 120364, 120416, 120468]),
  ("kA", [13188]),
  ("kHz", [13201]),
  ("kPa", [13226]),
  ("kV", [13240]),
  ("kW", [13246]),
  ("kcal", [13193]),
  ("kg", [13199]),
  ("kl", [13208]),
  ("km", [13214]),
  ("km2", [13218]),
  ("km3", [13222]),
  ("kt", [13263]),
  ("l", [314, 316, 318, 320, 737, 7735, 7737, 7739, 7741, 8343, 8467, 8572, 9435, 13205, 65356,
    119845, 119897, 119949, 120001, 120053, 120105, 120157, 120209, 120261, 120313, 120365,
    120417, 120469]),
  ("lj", [457]),
  ("lm", [13264]),
  ("ln", [13265]),
  ("log", [13266]),
  ("lx", [13267]),
  ("m", [7504, 7743, 7745, 7747, 8344, 8575, 9436, 13211, 65357, 119846, 119898, 119950, 120002,
    120054, 120106, 120158, 120210, 120262, 120314, 120366, 120418, 120470]),
  ("m2", [13217]),
  ("m3", [13221]),
  ("mA", [13187]),
  ("mV", [13239]),
  ("mW", [13245]),
  ("mb", [13268]),
  ("mg", [13198]),
  ("mil", [13269]),
  ("ml", [13206]),
  ("mm", [13212]),
  ("mm2", [13215]),
  ("mm3", [13219]),
  ("mol", [13270]),
  ("ms", [13223, 13235]),
  ("ms2", [13224]),
  ("n", [241, 324, 326, 328, 329, 505, 7749, 7751, 7753, 7755, 8319, 8345, 9437, 65358, 119847,
    119899, 119951, 120003, 120055, 120107, 120159, 120211, 120263, 120315, 120367, 120419,
    120471]),
  ("nA", [13185]),
  ("nF", [13195]),
  ("nV", [13237]),
  ("nW", [13243]),
  ("nj", [460]),
  ("nm", [13210]),
  ("ns", [13233]),
  ("o", [186, 242, 243, 244, 245, 246, 333, 335, 337, 417, 466, 491, 493, 525, 527, 555, 557,
    559, 561, 7506, 7757, 7759, 7761, 7763, 7885, 7887, 7889, 7891, 7893, 7895, 7897, 7899,
    7901, 7903, 7905, 7907, 8338, 8500, 9438, 65359, 119848, 119900, 119952, 120056, 120108,
    120160, 120212, 120264, 120316, 120368, 120420, 120472]),
  ("oV", [13173]),
  ("p", [7510, 7765, 7767, 8346, 9439, 65360, 119849, 119901, 119953, 120005, 120057, 120109,
    120161, 120213, 120265, 120317, 120369, 120421, 120473]),
  ("p.m.", [13272]),
  ("pA", [13184]),
  ("pF", [13194]),
  ("pV", [13236]),
  ("pW", [13242]),
  ("pc", [13174]),
  ("ps", [13232]),
  ("q", [9440, 65361, 67493, 119850, 119902, 119954, 120006, 120058, 120110, 120162, 120214,
    120266, 120318, 120370, 120422, 120474]),
  ("r", [341, 343, 345, 529, 531, 691, 7523, 7769, 7771, 7773, 7775, 9441, 65362, 119851,
    119903, 119955, 120007, 120059, 120111, 120163, 120215, 120267, 120319, 120371, 120423,
    120475]),
  ("rad", [13229]),
  ("rads", [13230]),
  ("rads2", [13231]),
  ("s", [347, 349, 351, 353, 383, 537, 738, 7777, 7779, 7781, 7783, 7785, 7835, 8347, 9442,
    13234, 65363, 119852, 119904, 119956, 120008, 120060, 120112, 120164, 120216, 120268,
    120320, 120372, 120424, 120476]),
  ("sr", [13275]),
  ("st", [64261, 64262]),
  ("t", [355, 357, 539, 7511, 7787, 7789, 7791, 7793, 7831, 8348, 9443, 65364, 119853, 119905,
    119957, 120009, 120061, 120113, 120165, 120217, 120269, 120321, 120373, 120425, 120477]),
  ("u", [249, 250, 251, 252, 361, 363, 365, 367, 369, 371, 432, 468, 470, 472, 474, 476, 533,
    535, 7512, 7524, 7795, 7797, 7799, 7801, 7803, 7909, 7911, 7913, 7915, 7917, 7919, 7921,
    9444, 65365, 119854, 119906, 119958, 120010, 120062, 120114, 120166, 120218, 120270, 120322,
    120374, 120426, 120478]),
  ("v", [7515, 7525, 7805, 7807, 8564, 9445, 65366, 119855, 119907, 119959, 120011, 120063,
    120115, 120167, 120219, 120271, 120323, 120375, 120427, 120479]),
  ("vi", [8565]),
  ("vii", [8566]),
  ("viii", [8567]),
  ("w", [373, 695, 7809, 7811, 7813, 7815, 7817, 7832, 9446, 65367, 119856, 119908, 119960,
    120012, 120064, 120116, 120168, 120220, 120272, 120324, 120376, 120428, 120480]),
  ("x", [739, 7819, 7821, 8339, 8569, 9447, 65368, 119857, 119909, 119961, 120013, 120065,
    120117, 120169, 120221, 120273, 120325, 120377, 120429, 120481]),
  ("xi", [8570]),
  ("xii", [8571]),
  ("y", [253, 255, 375, 563, 696, 7823, 7833, 7923, 7925, 7927, 7929, 9448, 65369, 119858,
    119910, 119962, 120014, 120066, 120118, 120170, 120222, 120274, 120326, 120378, 120430,
    120482]),
  ("z", [378, 380, 382, 7611, 7825, 7827, 7829, 9449, 65370, 119859, 119911, 119963, 120015,
    120067, 120119, 120171, 120223, 120275, 120327, 120379, 120431, 120483])]

/-- ASCII texts with the non-ASCII characters that leave them. -/
def asciiRemains : List (String × List Nat) :=
  signRemains ++ digitRemains ++ capitalRemains ++ letterRemains

end Galley.Text.Slug
