import SimpleRest.Cpp.Text

/-!
# SimpleREST — file extensions and MIME types (`mime.cpp`)

The table as it stands in the source. An extension that is listed twice keeps its first type,
because a map does not take a second entry for a key.
-/

namespace Rest

open Cpp

def extensionToMimeMappings : List (String × String) := [
  (".zmm", "application/vnd.handheld-entertainment+xml"),
  (".zir", "application/vnd.zul"),
  (".zip", "application/zip"),
  (".zaz", "application/vnd.zzazz.deck+xml"),
  (".yin", "application/yin+xml"),
  (".yang", "application/yang"),
  (".yaml", "text/yaml"),
  (".xyz", "chemical/x-xyz"),
  (".xwd", "image/x-xwindowdump"),
  (".xul", "application/vnd.mozilla.xul+xml"),
  (".xspf", "application/xspf+xml"),
  (".xsm", "application/vnd.syncml+xml"),
  (".xslt", "application/xslt+xml"),
  (".xpw", "application/vnd.intercon.formnet"),
  (".xps", "application/vnd.ms-xpsdocument"),
  (".xpr", "application/vnd.is-xpr"),
  (".xpm", "image/x-xpixmap"),
  (".xpi", "application/x-xpinstall"),
  (".xop", "application/xop+xml"),
  (".xo", "application/vnd.olpc-sugar"),
  (".xml", "application/xml"),
  (".xltx", "application/vnd.openxmlformats-officedocument.spreadsheetml.template"),
  (".xltm", "application/vnd.ms-excel.template.macroenabled.12"),
  (".xlsx", "application/vnd.openxmlformats-officedocument.spreadsheetml.sheet"),
  (".xlsm", "application/vnd.ms-excel.sheet.macroenabled.12"),
  (".xlsb", "application/vnd.ms-excel.sheet.binary.macroenabled.12"),
  (".xls", "application/vnd.ms-excel"),
  (".xlam", "application/vnd.ms-excel.addin.macroenabled.12"),
  (".xif", "image/vnd.xiff"),
  (".xhtml", "application/xhtml+xml"),
  (".xfdl", "application/vnd.xfdl"),
  (".xfdf", "application/vnd.adobe.xfdf"),
  (".xer", "application/patch-ops-error+xml"),
  (".xenc", "application/xenc+xml"),
  (".xdw", "application/vnd.fujixerox.docuworks"),
  (".xdssc", "application/dssc+xml"),
  (".xdp", "application/vnd.adobe.xdp+xml"),
  (".xdm", "application/vnd.syncml.dm+xml"),
  (".xdf", "application/xcap-diff+xml"),
  (".xbm", "image/x-xbitmap"),
  (".xbd", "application/vnd.fujixerox.docuworks.binder"),
  (".xbap", "application/x-ms-xbap"),
  (".xar", "application/vnd.xara"),
  (".xap", "application/x-silverlight-app"),
  (".x3d", "application/vnd.hzn-3d-crossword"),
  (".wvx", "video/x-ms-wvx"),
  (".wtb", "application/vnd.webturbo"),
  (".wspolicy", "application/wspolicy+xml"),
  (".wsdl", "application/wsdl+xml"),
  (".wrl", "model/vrml"),
  (".wri", "application/x-mswrite"),
  (".wqd", "application/vnd.wqd"),
  (".wps", "application/vnd.ms-works"),
  (".wpl", "application/vnd.ms-wpl"),
  (".wpd", "application/vnd.wordperfect"),
  (".woff", "application/x-font-woff"),
  (".wmz", "application/x-ms-wmz"),
  (".wmx", "video/x-ms-wmx"),
  (".wmv", "video/x-ms-wmv"),
  (".wmlsc", "application/vnd.wap.wmlscriptc"),
  (".wmls", "text/vnd.wap.wmlscript"),
  (".wmlc", "application/vnd.wap.wmlc"),
  (".wml", "text/vnd.wap.wml"),
  (".wmf", "application/x-msmetafile"),
  (".wmd", "application/x-ms-wmd"),
  (".wma", "audio/x-ms-wma"),
  (".wm", "video/x-ms-wm"),
  (".wgt", "application/widget"),
  (".wg", "application/vnd.pmi.widget"),
  (".webp", "image/webp"),
  (".webm", "video/webm"),
  (".weba", "audio/webm"),
  (".wbxml", "application/vnd.wap.wbxml"),
  (".wbs", "application/vnd.criticaltools.wbs+xml"),
  (".wbmp", "image/vnd.wap.wbmp"),
  (".wax", "audio/x-ms-wax"),
  (".wav", "audio/x-wav"),
  (".wad", "application/x-doom"),
  (".vxml", "application/voicexml+xml"),
  (".vtu", "model/vnd.vtu"),
  (".vsf", "application/vnd.vsf"),
  (".vsd", "application/vnd.visio"),
  (".viv", "video/vnd.vivo"),
  (".vis", "application/vnd.visionary"),
  (".vcx", "application/vnd.vcx"),
  (".vcs", "text/x-vcalendar"),
  (".vcg", "application/vnd.groove-vcard"),
  (".vcf", "text/x-vcard"),
  (".vcd", "application/x-cdlink"),
  (".uvv", "video/vnd.dece.video"),
  (".uvu", "video/vnd.uvvu.mp4"),
  (".uvs", "video/vnd.dece.sd"),
  (".uvp", "video/vnd.dece.pd"),
  (".uvm", "video/vnd.dece.mobile"),
  (".uvi", "image/vnd.dece.graphic"),
  (".uvh", "video/vnd.dece.hd"),
  (".uva", "audio/vnd.dece.audio"),
  (".uu", "text/x-uuencode"),
  (".utz", "application/vnd.uiq.theme"),
  (".ustar", "application/x-ustar"),
  (".uri", "text/uri-list"),
  (".uoml", "application/vnd.uoml+xml"),
  (".unityweb", "application/vnd.unity"),
  (".umj", "application/vnd.umajin"),
  (".ufd", "application/vnd.ufdl"),
  (".txt", "text/plain"),
  (".txf", "application/vnd.mobius.txf"),
  (".txd", "application/vnd.genomatix.tuxedo"),
  (".twd", "application/vnd.simtech-mindmapper"),
  (".ttl", "text/turtle"),
  (".ttf", "application/x-font-ttf"),
  (".tsv", "text/tab-separated-values"),
  (".tsd", "application/timestamped-data"),
  (".trm", "application/x-msterminal"),
  (".tra", "application/vnd.trueapp"),
  (".tpt", "application/vnd.trid.tpt"),
  (".tpl", "application/vnd.groove-tool-template"),
  (".torrent", "application/x-bittorrent"),
  (".tmo", "application/vnd.tmobile-livetv"),
  (".tiff", "image/tiff"),
  (".thmx", "application/vnd.ms-officetheme"),
  (".tfm", "application/x-tex-tfm"),
  (".tfi", "application/thraud+xml"),
  (".texinfo", "application/x-texinfo"),
  (".tex", "application/x-tex"),
  (".tei", "application/tei+xml"),
  (".teacher", "application/vnd.smart.teacher"),
  (".tcl", "application/x-tcl"),
  (".tcap", "application/vnd.3gpp2.tcap"),
  (".tar", "application/x-tar"),
  (".tao", "application/vnd.tao.intent-module-archive"),
  (".t", "text/troff"),
  (".sxw", "application/vnd.sun.xml.writer"),
  (".sxm", "application/vnd.sun.xml.math"),
  (".sxi", "application/vnd.sun.xml.impress"),
  (".sxg", "application/vnd.sun.xml.writer.global"),
  (".sxd", "application/vnd.sun.xml.draw"),
  (".sxc", "application/vnd.sun.xml.calc"),
  (".swi", "application/vnd.aristanetworks.swi"),
  (".swf", "application/x-shockwave-flash"),
  (".svg", "image/svg+xml"),
  (".svd", "application/vnd.svd"),
  (".svc", "application/vnd.dvb.service"),
  (".sv4crc", "application/x-sv4crc"),
  (".sv4cpio", "application/x-sv4cpio"),
  (".sus", "application/vnd.sus-calendar"),
  (".sub", "image/vnd.dvb.subtitle"),
  (".stw", "application/vnd.sun.xml.writer.template"),
  (".str", "application/vnd.pg.format"),
  (".stl", "application/vnd.ms-pki.stl"),
  (".stk", "application/hyperstudio"),
  (".sti", "application/vnd.sun.xml.impress.template"),
  (".stf", "application/vnd.wt.stf"),
  (".std", "application/vnd.sun.xml.draw.template"),
  (".stc", "application/vnd.sun.xml.calc.template"),
  (".st", "application/vnd.sailingtracker.track"),
  (".ssml", "application/ssml+xml"),
  (".ssf", "application/vnd.epson.ssf"),
  (".sse", "application/vnd.kodak-descriptor"),
  (".srx", "application/sparql-results+xml"),
  (".sru", "application/sru+xml"),
  (".src", "application/x-wais-source"),
  (".spq", "application/scvp-vp-request"),
  (".spp", "application/scvp-vp-response"),
  (".spot", "text/vnd.in3d.spot"),
  (".spl", "application/x-futuresplash"),
  (".spf", "application/vnd.yamaha.smaf-phrase"),
  (".snf", "application/x-font-snf"),
  (".smi", "application/smil+xml"),
  (".smf", "application/vnd.stardivision.math"),
  (".sm", "application/vnd.stepmania.stepchart"),
  (".slt", "application/vnd.epson.salt"),
  (".sldx", "application/vnd.openxmlformats-officedocument.presentationml.slide"),
  (".sldm", "application/vnd.ms-powerpoint.slide.macroenabled.12"),
  (".skp", "application/vnd.koan"),
  (".sitx", "application/x-stuffitx"),
  (".sit", "application/x-stuffit"),
  (".sis", "application/vnd.symbian.install"),
  (".shf", "application/shf+xml"),
  (".shar", "application/x-shar"),
  (".sh", "application/x-sh"),
  (".sgml", "text/sgml"),
  (".sgl", "application/vnd.stardivision.writer-global"),
  (".sfs", "application/vnd.spotfire.sfs"),
  (".sfd-hdstx", "application/vnd.hydrostatix.sof-data"),
  (".setreg", "application/set-registration-initiation"),
  (".setpay", "application/set-payment-initiation"),
  (".ser", "application/java-serialized-object"),
  (".semf", "application/vnd.semf"),
  (".semd", "application/vnd.semd"),
  (".sema", "application/vnd.sema"),
  (".seed", "application/vnd.fdsn.seed"),
  (".see", "application/vnd.seemail"),
  (".sdw", "application/vnd.stardivision.writer"),
  (".sdp", "application/sdp"),
  (".sdkm", "application/vnd.solent.sdkm+xml"),
  (".sdd", "application/vnd.stardivision.impress"),
  (".sdc", "application/vnd.stardivision.calc"),
  (".sda", "application/vnd.stardivision.draw"),
  (".scurl", "text/vnd.curl.scurl"),
  (".scs", "application/scvp-cv-response"),
  (".scq", "application/scvp-cv-request"),
  (".scm", "application/vnd.lotus-screencam"),
  (".scd", "application/x-msschedule"),
  (".sc", "application/vnd.ibm.secure-container"),
  (".sbml", "application/sbml+xml"),
  (".saf", "application/vnd.yamaha.smaf-audio"),
  (".s", "text/x-asm"),
  (".rtx", "text/richtext"),
  (".rtf", "application/rtf"),
  (".rss, .xml", "application/rss+xml"),
  (".rsd", "application/rsd+xml"),
  (".rs", "application/rls-services+xml"),
  (".rq", "application/sparql-query"),
  (".rpst", "application/vnd.nokia.radio-preset"),
  (".rpss", "application/vnd.nokia.radio-presets"),
  (".rp9", "application/vnd.cloanto.rp9"),
  (".rnc", "application/relax-ng-compact-syntax"),
  (".rms", "application/vnd.jcp.javame.midlet-rms"),
  (".rmp", "audio/x-pn-realaudio-plugin"),
  (".rm", "application/vnd.rn-realmedia"),
  (".rld", "application/resource-lists-diff+xml"),
  (".rlc", "image/vnd.fujixerox.edmics-rlc"),
  (".rl", "application/resource-lists+xml"),
  (".rip", "audio/vnd.rip"),
  (".rif", "application/reginfo+xml"),
  (".rgb", "image/x-rgb"),
  (".res", "application/x-dtbresource+xml"),
  (".rep", "application/vnd.businessobjects"),
  (".rdz", "application/vnd.data-vision.rdz"),
  (".rdf", "application/rdf+xml"),
  (".rcprofile", "application/vnd.ipunplugged.rcprofile"),
  (".ras", "image/x-cmu-raster"),
  (".rar", "application/x-rar-compressed"),
  (".ram", "audio/x-pn-realaudio"),
  (".qxd", "application/vnd.quark.quarkxpress"),
  (".qt", "video/quicktime"),
  (".qps", "application/vnd.publishare-delta-tree"),
  (".qfx", "application/vnd.intu.qfx"),
  (".qbo", "application/vnd.intu.qbo"),
  (".qam", "application/vnd.epson.quickanime"),
  (".pyv", "video/vnd.ms-playready.media.pyv"),
  (".pya", "audio/vnd.ms-playready.media.pya"),
  (".pwn", "application/vnd.3m.post-it-notes"),
  (".pvb", "application/vnd.3gpp.pic-bw-var"),
  (".pub", "application/x-mspublisher"),
  (".ptid", "application/vnd.pvi.ptid1"),
  (".pskcxml", "application/pskc+xml"),
  (".psf", "application/x-font-linux-psf"),
  (".psd", "image/vnd.adobe.photoshop"),
  (".psb", "application/vnd.3gpp.pic-bw-small"),
  (".prf", "application/pics-rules"),
  (".pre", "application/vnd.lotus-freelance"),
  (".prc", "application/x-mobipocket-ebook"),
  (".pptx", "application/vnd.openxmlformats-officedocument.presentationml.presentation"),
  (".pptm", "application/vnd.ms-powerpoint.presentation.macroenabled.12"),
  (".ppt", "application/vnd.ms-powerpoint"),
  (".ppsx", "application/vnd.openxmlformats-officedocument.presentationml.slideshow"),
  (".ppsm", "application/vnd.ms-powerpoint.slideshow.macroenabled.12"),
  (".ppm", "image/x-portable-pixmap"),
  (".ppd", "application/vnd.cups-ppd"),
  (".ppam", "application/vnd.ms-powerpoint.addin.macroenabled.12"),
  (".potx", "application/vnd.openxmlformats-officedocument.presentationml.template"),
  (".potm", "application/vnd.ms-powerpoint.template.macroenabled.12"),
  (".portpkg", "application/vnd.macports.portpkg"),
  (".pnm", "image/x-portable-anymap"),
  (".png", "image/png"),
  (".pml", "application/vnd.ctc-posml"),
  (".pls", "application/pls+xml"),
  (".plf", "application/vnd.pocketlearn"),
  (".plc", "application/vnd.mobius.plc"),
  (".plb", "application/vnd.3gpp.pic-bw-large"),
  (".pkipath", "application/pkix-pkipath"),
  (".pki", "application/pkixcmp"),
  (".pic", "image/x-pict"),
  (".pgp", "application/pgp-signature"),
  (".pgn", "application/x-chess-pgn"),
  (".pgm", "image/x-portable-graymap"),
  (".pfr", "application/font-tdpfr"),
  (".pfa", "application/x-font-type1"),
  (".pdf", "application/pdf"),
  (".pdb", "application/vnd.palm"),
  (".pcx", "image/x-pcx"),
  (".pcurl", "application/vnd.curl.pcurl"),
  (".pclxl", "application/vnd.hp-pclxl"),
  (".pcl", "application/vnd.hp-pcl"),
  (".pcf", "application/x-font-pcf"),
  (".pbm", "image/x-portable-bitmap"),
  (".pbd", "application/vnd.powerbuilder6"),
  (".paw", "application/vnd.pawaafile"),
  (".par", "text/plain-bas"),
  (".p8", "application/pkcs8"),
  (".p7s", "application/pkcs7-signature"),
  (".p7r", "application/x-pkcs7-certreqresp"),
  (".p7m", "application/pkcs7-mime"),
  (".p7b", "application/x-pkcs7-certificates"),
  (".p12", "application/x-pkcs12"),
  (".p10", "application/pkcs10"),
  (".p", "text/x-pascal"),
  (".oxt", "application/vnd.openofficeorg.extension"),
  (".ott", "application/vnd.oasis.opendocument.text-template"),
  (".ots", "application/vnd.oasis.opendocument.spreadsheet-template"),
  (".otp", "application/vnd.oasis.opendocument.presentation-template"),
  (".oti", "application/vnd.oasis.opendocument.image-template"),
  (".oth", "application/vnd.oasis.opendocument.text-web"),
  (".otg", "application/vnd.oasis.opendocument.graphics-template"),
  (".otf", "application/x-font-otf"),
  (".otc", "application/vnd.oasis.opendocument.chart-template"),
  (".osfpvg", "application/vnd.yamaha.openscoreformat.osfpvg+xml"),
  (".osf", "application/vnd.yamaha.openscoreformat"),
  (".org", "application/vnd.lotus-organizer"),
  (".opf", "application/oebps-package+xml"),
  (".onetoc", "application/onenote"),
  (".ogx", "application/ogg"),
  (".ogv", "video/ogg"),
  (".oga", "audio/ogg"),
  (".odt", "application/vnd.oasis.opendocument.text"),
  (".ods", "application/vnd.oasis.opendocument.spreadsheet"),
  (".odp", "application/vnd.oasis.opendocument.presentation"),
  (".odm", "application/vnd.oasis.opendocument.text-master"),
  (".odi", "application/vnd.oasis.opendocument.image"),
  (".odg", "application/vnd.oasis.opendocument.graphics"),
  (".odft", "application/vnd.oasis.opendocument.formula-template"),
  (".odf", "application/vnd.oasis.opendocument.formula"),
  (".odc", "application/vnd.oasis.opendocument.chart"),
  (".odb", "application/vnd.oasis.opendocument.database"),
  (".oda", "application/oda"),
  (".obd", "application/x-msbinder"),
  (".oas", "application/vnd.fujitsu.oasys"),
  (".oa3", "application/vnd.fujitsu.oasys3"),
  (".oa2", "application/vnd.fujitsu.oasys2"),
  (".nsf", "application/vnd.lotus-notes"),
  (".npx", "image/vnd.net-fpx"),
  (".nnw", "application/vnd.noblenet-web"),
  (".nns", "application/vnd.noblenet-sealer"),
  (".nnd", "application/vnd.noblenet-directory"),
  (".nml", "application/vnd.enliven"),
  (".nlu", "application/vnd.neurolanguage.nlu"),
  (".ngdat", "application/vnd.nokia.n-gage.data"),
  (".ncx", "application/x-dtbncx+xml"),
  (".nc", "application/x-netcdf"),
  (".nbp", "application/vnd.wolfram.player"),
  (".n3", "text/n3"),
  (".n-gage", "application/vnd.nokia.n-gage.symbian.install"),
  (".mxu", "video/vnd.mpegurl"),
  (".mxs", "application/vnd.triscape.mxs"),
  (".mxml", "application/xv+xml"),
  (".mxl", "application/vnd.recordare.musicxml"),
  (".mxf", "application/mxf"),
  (".mwf", "application/vnd.mfer"),
  (".mvb", "application/x-msmediaview"),
  (".musicxml", "application/vnd.recordare.musicxml+xml"),
  (".mus", "application/vnd.musician"),
  (".mts", "model/vnd.mts"),
  (".msty", "application/vnd.muvee.style"),
  (".msl", "application/vnd.mobius.msl"),
  (".msh", "model/mesh"),
  (".msf", "application/vnd.epson.msf"),
  (".mseq", "application/vnd.mseq"),
  (".mscml", "application/mediaservercontrol+xml"),
  (".mrcx", "application/marcxml+xml"),
  (".mrc", "application/marc"),
  (".mqy", "application/vnd.mobius.mqy"),
  (".mpy", "application/vnd.ibm.minipay"),
  (".mpp", "application/vnd.ms-project"),
  (".mpn", "application/vnd.mophun.application"),
  (".mpm", "application/vnd.blueice.multipass"),
  (".mpkg", "application/vnd.apple.installer+xml"),
  (".mpga", "audio/mpeg"),
  (".mpeg", "video/mpeg"),
  (".mpc", "application/vnd.mophun.certificate"),
  (".mp4a", "audio/mp4"),
  (".mp4", "application/mp4"),
  (".mp4", "video/mp4"),
  (".movie", "video/x-sgi-movie"),
  (".mods", "application/mods+xml"),
  (".mny", "application/x-msmoney"),
  (".mmr", "image/vnd.fujixerox.edmics-mmr"),
  (".mmf", "application/vnd.smaf"),
  (".mmd", "application/vnd.chipnuts.karaoke-mmd"),
  (".mlp", "application/vnd.dolby.mlp"),
  (".mj2", "video/mj2"),
  (".mif", "application/vnd.mif"),
  (".mid", "audio/midi"),
  (".mgz", "application/vnd.proteus.magazine"),
  (".mgp", "application/vnd.osgeo.mapguide.package"),
  (".mfm", "application/vnd.mfmp"),
  (".mets", "application/mets+xml"),
  (".meta4", "application/metalink4+xml"),
  (".mdi", "image/vnd.ms-modi"),
  (".mdb", "application/x-msaccess"),
  (".mcurl", "text/vnd.curl.mcurl"),
  (".mcd", "application/vnd.mcd"),
  (".mc1", "application/vnd.medcalcdata"),
  (".mbox", "application/mbox"),
  (".mbk", "application/vnd.mobius.mbk"),
  (".mathml", "application/mathml+xml"),
  (".mag", "application/vnd.ecowin.chart"),
  (".mads", "application/mads+xml"),
  (".ma", "application/mathematica"),
  (".m4v", "video/x-m4v"),
  (".m3u8", "application/vnd.apple.mpegurl"),
  (".m3u", "audio/x-mpegurl"),
  (".m21", "application/mp21"),
  (".lwp", "application/vnd.lotus-wordpro"),
  (".lvp", "audio/vnd.lucent.voice"),
  (".ltf", "application/vnd.frogans.ltf"),
  (".lrm", "application/vnd.ms-lrm"),
  (".link66", "application/vnd.route66.link66+xml"),
  (".les", "application/vnd.hhe.lesson-player"),
  (".lbe", "application/vnd.llamagraphics.life-balance.exchange+xml"),
  (".lbd", "application/vnd.llamagraphics.life-balance.desktop"),
  (".latex", "application/x-latex"),
  (".lasxml", "application/vnd.las.las+xml"),
  (".kwd", "application/vnd.kde.kword"),
  (".ktz", "application/vnd.kahootz"),
  (".ktx", "image/ktx"),
  (".ksp", "application/vnd.kde.kspread"),
  (".kpr", "application/vnd.kde.kpresenter"),
  (".kon", "application/vnd.kde.kontour"),
  (".kne", "application/vnd.kinar"),
  (".kmz", "application/vnd.google-earth.kmz"),
  (".kml", "application/vnd.google-earth.kml+xml"),
  (".kia", "application/vnd.kidspiration"),
  (".kfo", "application/vnd.kde.kformula"),
  (".karbon", "application/vnd.kde.karbon"),
  (".json", "application/json"),
  (".js", "application/javascript"),
  (".jpm", "video/jpm"),
  (".jpgv", "video/jpeg"),
  (".jpeg, .jpg", "image/jpeg"),
  (".joda", "application/vnd.joost.joda-archive"),
  (".jnlp", "application/x-java-jnlp-file"),
  (".jlt", "application/vnd.hp-jlyt"),
  (".jisp", "application/vnd.jisp"),
  (".java", "text/x-java-source,java"),
  (".jar", "application/java-archive"),
  (".jam", "application/vnd.jam"),
  (".jad", "text/vnd.sun.j2me.app-descriptor"),
  (".ivu", "application/vnd.immervision-ivu"),
  (".ivp", "application/vnd.immervision-ivp"),
  (".itp", "application/vnd.shana.informed.formtemplate"),
  (".irp", "application/vnd.irepository.package+xml"),
  (".irm", "application/vnd.ibm.rights-management"),
  (".ipk", "application/vnd.shana.informed.package"),
  (".ipfix", "application/ipfix"),
  (".ims", "application/vnd.ms-ims"),
  (".imp", "application/vnd.accpac.simply.imp"),
  (".iif", "application/vnd.shana.informed.interchange"),
  (".igx", "application/vnd.micrografx.igx"),
  (".igs", "model/iges"),
  (".igm", "application/vnd.insors.igm"),
  (".igl", "application/vnd.igloader"),
  (".ifm", "application/vnd.shana.informed.formdata"),
  (".ief", "image/ief"),
  (".ics", "text/calendar"),
  (".ico", "image/x-icon"),
  (".ice", "x-conference/x-cooltalk"),
  (".icc", "application/vnd.iccprofile"),
  (".i2g", "application/vnd.intergeo"),
  (".hvs", "application/vnd.yamaha.hv-script"),
  (".hvp", "application/vnd.yamaha.hv-voice"),
  (".hvd", "application/vnd.yamaha.hv-dic"),
  (".html", "text/html"),
  (".htke", "application/vnd.kenameaapp"),
  (".hqx", "application/mac-binhex40"),
  (".hps", "application/vnd.hp-hps"),
  (".hpid", "application/vnd.hp-hpid"),
  (".hpgl", "application/vnd.hp-hpgl"),
  (".hlp", "application/winhlp"),
  (".hdf", "application/x-hdf"),
  (".hbci", "application/vnd.hbci"),
  (".hal", "application/vnd.hal+xml"),
  (".h264", "video/h264"),
  (".h263", "video/h263"),
  (".h261", "video/h261"),
  (".gxt", "application/vnd.geonext"),
  (".gv", "text/vnd.graphviz"),
  (".gtw", "model/vnd.gtw"),
  (".gtm", "application/vnd.groove-tool-message"),
  (".gtar", "application/x-gtar"),
  (".gsf", "application/x-font-ghostscript"),
  (".grxml", "application/srgs+xml"),
  (".grv", "application/vnd.groove-injector"),
  (".gram", "application/srgs"),
  (".gqf", "application/vnd.grafeq"),
  (".gph", "application/vnd.flographit"),
  (".gnumeric", "application/x-gnumeric"),
  (".gmx", "application/vnd.gmx"),
  (".gim", "application/vnd.groove-identity-message"),
  (".gif", "image/gif"),
  (".ghf", "application/vnd.groove-help"),
  (".ggt", "application/vnd.geogebra.tool"),
  (".ggb", "application/vnd.geogebra.file"),
  (".gex", "application/vnd.geometry-explorer"),
  (".geo", "application/vnd.dynageo"),
  (".gdl", "model/vnd.gdl"),
  (".gac", "application/vnd.groove-account"),
  (".g3w", "application/vnd.geospace"),
  (".g3", "image/g3fax"),
  (".g2w", "application/vnd.geoplan"),
  (".fzs", "application/vnd.fuzzysheet"),
  (".fxp", "application/vnd.adobe.fxp"),
  (".fvt", "video/vnd.fvt"),
  (".fti", "application/vnd.anser-web-funds-transfer-initiation"),
  (".ftc", "application/vnd.fluxtime.clip"),
  (".fst", "image/vnd.fst"),
  (".fsc", "application/vnd.fsc.weblaunch"),
  (".fpx", "image/vnd.fpx"),
  (".fnc", "application/vnd.frogans.fnc"),
  (".fm", "application/vnd.framemaker"),
  (".fly", "text/vnd.fly"),
  (".flx", "text/vnd.fmi.flexstor"),
  (".flw", "application/vnd.kde.kivio"),
  (".flv", "video/x-flv"),
  (".flo", "application/vnd.micrografx.flo"),
  (".fli", "video/x-fli"),
  (".fig", "application/x-xfig"),
  (".fh", "image/x-freehand"),
  (".fg5", "application/vnd.fujitsu.oasysgp"),
  (".fe_launch", "application/vnd.denovo.fcselayout-link"),
  (".fdf", "application/vnd.fdf"),
  (".fcs", "application/vnd.isac.fcs"),
  (".fbs", "image/vnd.fastbidsheet"),
  (".f4v", "video/x-f4v"),
  (".f", "text/x-fortran"),
  (".ez3", "application/vnd.ezpix-package"),
  (".ez2", "application/vnd.ezpix-album"),
  (".ext", "application/vnd.novadigm.ext"),
  (".exi", "application/exi"),
  (".exe", "application/x-msdownload"),
  (".etx", "text/x-setext"),
  (".esf", "application/vnd.epson.esf"),
  (".es3", "application/vnd.eszigno3+xml"),
  (".es", "application/ecmascript"),
  (".epub", "application/epub+zip"),
  (".eot", "application/vnd.ms-fontobject"),
  (".eol", "audio/vnd.digital-winds"),
  (".emma", "application/emma+xml"),
  (".eml", "message/rfc822"),
  (".ei6", "application/vnd.pg.osasli"),
  (".efif", "application/vnd.picsel"),
  (".edx", "application/vnd.novadigm.edx"),
  (".edm", "application/vnd.novadigm.edm"),
  (".ecelp9600", "audio/vnd.nuera.ecelp9600"),
  (".ecelp7470", "audio/vnd.nuera.ecelp7470"),
  (".ecelp4800", "audio/vnd.nuera.ecelp4800"),
  (".dxp", "application/vnd.spotfire.dxp"),
  (".dxf", "image/vnd.dxf"),
  (".dwg", "image/vnd.dwg"),
  (".dwf", "model/vnd.dwf"),
  (".dvi", "application/x-dvi"),
  (".dtshd", "audio/vnd.dts.hd"),
  (".dts", "audio/vnd.dts"),
  (".dtd", "application/xml-dtd"),
  (".dtb", "application/x-dtbook+xml"),
  (".dssc", "application/dssc+der"),
  (".dsc", "text/prs.lines.tag"),
  (".dra", "audio/vnd.dra"),
  (".dpg", "application/vnd.dpgraph"),
  (".dp", "application/vnd.osgi.dp"),
  (".dotx", "application/vnd.openxmlformats-officedocument.wordprocessingml.template"),
  (".dotm", "application/vnd.ms-word.template.macroenabled.12"),
  (".docx", "application/vnd.openxmlformats-officedocument.wordprocessingml.document"),
  (".docm", "application/vnd.ms-word.document.macroenabled.12"),
  (".doc", "application/msword"),
  (".dna", "application/vnd.dna"),
  (".djvu", "image/vnd.djvu"),
  (".dis", "application/vnd.mobius.dis"),
  (".dir", "application/x-director"),
  (".dfac", "application/vnd.dreamfactory"),
  (".der", "application/x-x509-ca-cert"),
  (".deb", "application/x-debian-package"),
  (".ddd", "application/vnd.fujixerox.ddd"),
  (".dd2", "application/vnd.oma.dd2+xml"),
  (".dcurl", "text/vnd.curl.dcurl"),
  (".davmount", "application/davmount+xml"),
  (".daf", "application/vnd.mobius.daf"),
  (".dae", "model/vnd.collada+xml"),
  (".cww", "application/prs.cww"),
  (".curl", "text/vnd.curl"),
  (".cu", "application/cu-seeme"),
  (".csv", "text/csv"),
  (".css", "text/css"),
  (".csp", "application/vnd.commonspace"),
  (".csml", "chemical/x-csml"),
  (".csh", "application/x-csh"),
  (".cryptonote", "application/vnd.rig.cryptonote"),
  (".crl", "application/pkix-crl"),
  (".crd", "application/x-mscardfile"),
  (".cpt", "application/mac-compactpro"),
  (".cpio", "application/x-cpio"),
  (".cod", "application/vnd.rim.cod"),
  (".cmx", "image/x-cmx"),
  (".cmp", "application/vnd.yellowriver-custom-menu"),
  (".cml", "chemical/x-cml"),
  (".cmdf", "chemical/x-cmdf"),
  (".cmc", "application/vnd.cosmocaller"),
  (".clp", "application/x-msclip"),
  (".clkx", "application/vnd.crick.clicker"),
  (".clkw", "application/vnd.crick.clicker.wordbank"),
  (".clkt", "application/vnd.crick.clicker.template"),
  (".clkp", "application/vnd.crick.clicker.palette"),
  (".clkk", "application/vnd.crick.clicker.keyboard"),
  (".class", "application/java-vm"),
  (".cla", "application/vnd.claymore"),
  (".cil", "application/vnd.ms-artgalry"),
  (".cii", "application/vnd.anser-web-certificate-issue-initiation"),
  (".cif", "chemical/x-cif"),
  (".chrt", "application/vnd.kde.kchart"),
  (".chm", "application/vnd.ms-htmlhelp"),
  (".chat", "application/x-chat"),
  (".cgm", "image/cgm"),
  (".cer", "application/pkix-cert"),
  (".cdy", "application/vnd.cinderella"),
  (".cdxml", "application/vnd.chemdraw+xml"),
  (".cdx", "chemical/x-cdx"),
  (".cdmiq", "application/cdmi-queue"),
  (".cdmio", "application/cdmi-object"),
  (".cdmid", "application/cdmi-domain"),
  (".cdmic", "application/cdmi-container"),
  (".cdmia", "application/cdmi-capability"),
  (".cdkey", "application/vnd.mediastation.cdkey"),
  (".cdbcmsg", "application/vnd.contact.cmsg"),
  (".ccxml", "application/ccxml+xml,"),
  (".cat", "application/vnd.ms-pki.seccat"),
  (".car", "application/vnd.curl.car"),
  (".cab", "application/vnd.ms-cab-compressed"),
  (".c4g", "application/vnd.clonk.c4group"),
  (".c11amz", "application/vnd.cluetrust.cartomobile-config-pkg"),
  (".c11amc", "application/vnd.cluetrust.cartomobile-config"),
  (".c", "text/x-c"),
  (".bz2", "application/x-bzip2"),
  (".bz", "application/x-bzip"),
  (".btif", "image/prs.btif"),
  (".box", "application/vnd.previewsystems.box"),
  (".bmp", "image/bmp"),
  (".bmi", "application/vnd.bmi"),
  (".bin", "application/octet-stream"),
  (".bh2", "application/vnd.fujitsu.oasysprs"),
  (".bed", "application/vnd.realvnc.bed"),
  (".bdm", "application/vnd.syncml.dm+wbxml"),
  (".bdf", "application/x-font-bdf"),
  (".bcpio", "application/x-bcpio"),
  (".azw", "application/vnd.amazon.ebook"),
  (".azs", "application/vnd.airzip.filesecure.azs"),
  (".azf", "application/vnd.airzip.filesecure.azf"),
  (".aw", "application/applixware"),
  (".avi", "video/x-msvideo"),
  (".au", "audio/basic"),
  (".atx", "application/vnd.antix.game-component"),
  (".atomsvc", "application/atomsvc+xml"),
  (".atomcat", "application/atomcat+xml"),
  (".atom, .xml", "application/atom+xml"),
  (".atc", "application/vnd.acucorp"),
  (".aso", "application/vnd.accpac.simply.aso"),
  (".asf", "video/x-ms-asf"),
  (".apr", "application/vnd.lotus-approach"),
  (".application", "application/x-ms-application"),
  (".apk", "application/vnd.android.package-archive"),
  (".ami", "application/vnd.amiga.ami"),
  (".ait", "application/vnd.dvb.ait"),
  (".air", "application/vnd.adobe.air-application-installer-package+zip"),
  (".aif", "audio/x-aiff"),
  (".ai", "application/postscript"),
  (".ahead", "application/vnd.ahead.space"),
  (".afp", "application/vnd.ibm.modcap"),
  (".aep", "application/vnd.audiograph"),
  (".adp", "audio/adpcm"),
  (".acu", "application/vnd.acucobol"),
  (".ace", "application/x-ace-compressed"),
  (".acc", "application/vnd.americandynamics.acc"),
  (".ac", "application/pkix-attr-cert"),
  (".abw", "application/x-abiword"),
  (".aas", "application/x-authorware-seg"),
  (".aam", "application/x-authorware-map"),
  (".aac", "audio/x-aac"),
  (".aab", "application/x-authorware-bin"),
  (".7z", "application/x-7z-compressed"),
  (".3gp", "video/3gpp"),
  (".3g2", "video/3gpp2"),
  (".3dml", "text/vnd.in3d.3dml"),
  (".123", "application/vnd.lotus-1-2-3")]

/-- The MIME type of an extension with its dot, empty if there is none. -/
def extensionToMimeType (extension : Str) : Str :=
  match extensionToMimeMappings.find? (·.1.toList == extension) with
  | none => []
  | some entry => entry.2.toList

end Rest
