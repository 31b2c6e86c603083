namespace IndexVault.Http.FileExtension

/-- Media types of applications. -/
def registeredTypes : List (String × List String) :=
  [("application/PowerShell", ["psc1"]),
   ("application/acad", ["dwg"]),
   ("application/andrew-inset", ["ez"]),
   ("application/annodex", ["anx"]),
   ("application/applixware", ["aw"]),
   ("application/atom+xml", ["atom"]),
   ("application/atomcat+xml", ["atomcat"]),
   ("application/atomsvc+xml", ["atomsvc"]),
   ("application/bdoc", ["bdoc"]),
   ("application/ccxml+xml", ["ccxml"]),
   ("application/cdmi-capability", ["cdmia"]),
   ("application/cdmi-container", ["cdmic"]),
   ("application/cdmi-domain", ["cdmid"]),
   ("application/cdmi-object", ["cdmio"]),
   ("application/cdmi-queue", ["cdmiq"]),
   ("application/cu-seeme", ["cu"]),
   ("application/dash+xml", ["mpd"]),
   ("application/davmount+xml", ["davmount"]),
   ("application/directx", ["x"]),
   ("application/docbook+xml", ["dbk"]),
   ("application/dssc+der", ["dssc"]),
   ("application/dssc+xml", ["xdssc"]),
   ("application/emma+xml", ["emma"]),
   ("application/envoy", ["evy"]),
   ("application/epub+zip", ["epub"]),
   ("application/etl", ["etl"]),
   ("application/exi", ["exi"]),
   ("application/font-sfnt", ["otf"]),
   ("application/font-tdpfr", ["pfr"]),
   ("application/font-woff", ["woff"]),
   ("application/fractals", ["fif"]),
   ("application/fsharp-script", ["fsscript", "fsx"]),
   ("application/futuresplash", ["spl"]),
   ("application/geo+json", ["geojson"]),
   ("application/gml+xml", ["gml"]),
   ("application/gpx+xml", ["gpx"]),
   ("application/gxf", ["gxf"]),
   ("application/gzip", ["gz"]),
   ("application/hjson", ["hjson"]),
   ("application/hta", ["hta"]),
   ("application/hyperstudio", ["stk"]),
   ("application/inkml+xml", ["ink", "inkml"]),
   ("application/internet-property-stream", ["acx"]),
   ("application/ipfix", ["ipfix"]),
   ("application/java-archive", ["ear", "jar", "war"]),
   ("application/java-serialized-object", ["ser"]),
   ("application/javascript", ["mjs"]),
   ("application/json", ["json"]),
   ("application/json5", ["json5"]),
   ("application/jsonml+json", ["jsonml"]),
   ("application/ld+json", ["jsonld"]),
   ("application/liquidmotion", ["jck", "jcz"]),
   ("application/lost+xml", ["lostxml"]),
   ("application/mac-binhex40", ["hqx"]),
   ("application/mac-compactpro", ["cpt"]),
   ("application/mads+xml", ["mads"]),
   ("application/manifest+json", ["webmanifest"]),
   ("application/marc", ["mrc"]),
   ("application/marcxml+xml", ["mrcx"]),
   ("application/mathematica", ["ma", "mb", "nb"]),
   ("application/mathml+xml", ["mathml"]),
   ("application/mbox", ["mbox"]),
   ("application/mediaservercontrol+xml", ["mscml"]),
   ("application/metalink+xml", ["metalink"]),
   ("application/metalink4+xml", ["meta4"]),
   ("application/mets+xml", ["mets"]),
   ("application/mods+xml", ["mods"]),
   ("application/mp21", ["m21", "mp21"]),
   ("application/mp4", ["mp4s"]),
   ("application/mpeg", ["amc"]),
   ("application/ms-vsi", ["vsi"]),
   ("application/msaccess", ["accdb", "accde", "accdt", "ade", "adp", "mda", "mde"]),
   ("application/msaccess.addin", ["accda"]),
   ("application/msaccess.cab", ["accdc"]),
   ("application/msaccess.ftemplate", ["accft"]),
   ("application/msaccess.runtime", ["accdr"]),
   ("application/msaccess.webapplication", ["accdw"]),
   ("application/msword", ["doc", "dot", "wbk", "wiz"]),
   ("application/mxf", ["mxf"]),
   ("application/n-quads", ["nq"]),
   ("application/n-triples", ["nt"]),
   ("application/oda", ["oda"]),
   ("application/oebps-package+xml", ["opf"]),
   ("application/ogg", ["ogx"]),
   ("application/olescript", ["axs"]),
   ("application/omdoc+xml", ["omdoc"]),
   ("application/onenote", ["one", "onea", "onepkg", "onetmp", "onetoc", "onetoc2"]),
   ("application/opensearchdescription+xml", ["osdx"]),
   ("application/oxps", ["oxps"]),
   ("application/patch-ops-error+xml", ["xer"]),
   ("application/pdf", ["pdf"]),
   ("application/pgp-encrypted", ["pgp"]),
   ("application/pgp-signature", ["asc", "sig"]),
   ("application/pics-rules", ["prf"]),
   ("application/pkcs10", ["p10"]),
   ("application/pkcs7-mime", ["p7c", "p7m"]),
   ("application/pkcs7-signature", ["p7s"]),
   ("application/pkcs8", ["p8"]),
   ("application/pkix-attr-cert", ["ac"]),
   ("application/pkix-crl", ["crl"]),
   ("application/pkix-pkipath", ["pkipath"]),
   ("application/pkixcmp", ["pki"]),
   ("application/postscript", ["ai", "eps", "ps"]),
   ("application/prs.cww", ["cww"]),
   ("application/pskc+xml", ["pskcxml"]),
   ("application/raml+yaml", ["raml"]),
   ("application/rat-file", ["rat"]),
   ("application/rdf+xml", ["rdf"]),
   ("application/reginfo+xml", ["rif"]),
   ("application/relax-ng-compact-syntax", ["rnc"]),
   ("application/resource-lists+xml", ["rl"]),
   ("application/resource-lists-diff+xml", ["rld"]),
   ("application/rpki-ghostbusters", ["gbr"]),
   ("application/rpki-manifest", ["mft"]),
   ("application/rpki-roa", ["roa"]),
   ("application/rsd+xml", ["rsd"]),
   ("application/rss+xml", ["rss"]),
   ("application/rtf", ["rtf"]),
   ("application/sbml+xml", ["sbml"]),
   ("application/scvp-cv-request", ["scq"]),
   ("application/scvp-cv-response", ["scs"]),
   ("application/scvp-vp-request", ["spq"]),
   ("application/scvp-vp-response", ["spp"]),
   ("application/sdp", ["sdp"]),
   ("application/set-payment-initiation", ["setpay"]),
   ("application/set-registration-initiation", ["setreg"]),
   ("application/shf+xml", ["shf"]),
   ("application/smil+xml", ["smil"]),
   ("application/sparql-query", ["rq"]),
   ("application/sparql-results+xml", ["srx"]),
   ("application/srgs", ["gram"]),
   ("application/srgs+xml", ["grxml"]),
   ("application/sru+xml", ["sru"]),
   ("application/ssdl+xml", ["ssdl"]),
   ("application/ssml+xml", ["ssml"]),
   ("application/step", ["step", "stp"]),
   ("application/streamingmedia", ["ssm"]),
   ("application/tei+xml", ["tei", "teicorpus"]),
   ("application/thraud+xml", ["tfi"]),
   ("application/timestamped-data", ["tsd"]),
   ("application/trig", ["trig"]),
   ("application/voicexml+xml", ["vxml"]),
   ("application/vsix", ["vsix"]),
   ("application/wasm", ["wasm"]),
   ("application/widget", ["wgt"]),
   ("application/windows-library+xml", ["library-ms"]),
   ("application/windows-search-connector+xml", ["searchconnector-ms"]),
   ("application/winhlp", ["hlp"]),
   ("application/wlmoviemaker", ["wlmp"]),
   ("application/wspolicy+xml", ["wspolicy"]),
   ("application/xaml+xml", ["xaml"]),
   ("application/xcap-diff+xml", ["xdf"]),
   ("application/xenc+xml", ["xenc"]),
   ("application/xhtml+xml", ["xht", "xhtml"]),
   ("application/xml",
     ["asa", "asax", "ascx", "ashx", "asmx", "aspx", "config", "coverage", "datasource", "dgml",
      "filters", "generictest", "hxa", "hxc", "hxe", "hxf", "hxk", "hxv", "loadtest", "master",
      "mtx", "orderedtest", "psess", "rdlc", "resx", "rng", "ruleset", "settings", "sitemap",
      "skin", "snippet", "svc", "testrunconfig", "testsettings", "trx", "vcproj", "vcxproj",
      "vscontent", "vsmdi", "webtest", "wiq", "xmta", "xsc", "xss"]),
   ("application/xop+xml", ["xop"]),
   ("application/xproc+xml", ["xpl"]),
   ("application/xspf+xml", ["xspf"]),
   ("application/xv+xml", ["mxml", "xhvml", "xvm", "xvml"]),
   ("application/yang", ["yang"]),
   ("application/yin+xml", ["yin"]),
   ("application/zip", ["zip"])]

/-- Media types of applications that belong to a vendor. -/
def vendorTypes : List (String × List String) :=
  [("application/vnd.3gpp.pic-bw-large", ["plb"]),
   ("application/vnd.3gpp.pic-bw-small", ["psb"]),
   ("application/vnd.3gpp.pic-bw-var", ["pvb"]),
   ("application/vnd.3gpp2.tcap", ["tcap"]),
   ("application/vnd.3m.post-it-notes", ["pwn"]),
   ("application/vnd.accpac.simply.aso", ["aso"]),
   ("application/vnd.accpac.simply.imp", ["imp"]),
   ("application/vnd.acucobol", ["acu"]),
   ("application/vnd.acucorp", ["acutc", "atc"]),
   ("application/vnd.adobe.air-application-installer-package+zip", ["air"]),
   ("application/vnd.adobe.formscentral.fcdt", ["fcdt"]),
   ("application/vnd.adobe.fxp", ["fxp", "fxpl"]),
   ("application/vnd.adobe.xdp+xml", ["xdp"]),
   ("application/vnd.adobe.xfdf", ["xfdf"]),
   ("application/vnd.ahead.space", ["ahead"]),
   ("application/vnd.airzip.filesecure.azf", ["azf"]),
   ("application/vnd.airzip.filesecure.azs", ["azs"]),
   ("application/vnd.amazon.ebook", ["azw"]),
   ("application/vnd.americandynamics.acc", ["acc"]),
   ("application/vnd.amiga.ami", ["ami"]),
   ("application/vnd.android.package-archive", ["apk"]),
   ("application/vnd.anser-web-certificate-issue-initiation", ["cii"]),
   ("application/vnd.anser-web-funds-transfer-initiation", ["fti"]),
   ("application/vnd.antix.game-component", ["atx"]),
   ("application/vnd.apache.parquet", ["parquet"]),
   ("application/vnd.apple.installer+xml", ["mpkg"]),
   ("application/vnd.apple.pkpass", ["pkpass"]),
   ("application/vnd.aristanetworks.swi", ["swi"]),
   ("application/vnd.astraea-software.iota", ["iota"]),
   ("application/vnd.audiograph", ["aep"]),
   ("application/vnd.blueice.multipass", ["mpm"]),
   ("application/vnd.bmi", ["bmi"]),
   ("application/vnd.businessobjects", ["rep"]),
   ("application/vnd.chemdraw+xml", ["cdxml"]),
   ("application/vnd.chipnuts.karaoke-mmd", ["mmd"]),
   ("application/vnd.cinderella", ["cdy"]),
   ("application/vnd.citationstyles.style+xml", ["csl"]),
   ("application/vnd.claymore", ["cla"]),
   ("application/vnd.cloanto.rp9", ["rp9"]),
   ("application/vnd.clonk.c4group", ["c4d", "c4f", "c4g", "c4p", "c4u"]),
   ("application/vnd.cluetrust.cartomobile-config", ["c11amc"]),
   ("application/vnd.cluetrust.cartomobile-config-pkg", ["c11amz"]),
   ("application/vnd.commonspace", ["csp"]),
   ("application/vnd.contact.cmsg", ["cdbcmsg"]),
   ("application/vnd.cosmocaller", ["cmc"]),
   ("application/vnd.crick.clicker", ["clkx"]),
   ("application/vnd.crick.clicker.keyboard", ["clkk"]),
   ("application/vnd.crick.clicker.palette", ["clkp"]),
   ("application/vnd.crick.clicker.template", ["clkt"]),
   ("application/vnd.crick.clicker.wordbank", ["clkw"]),
   ("application/vnd.criticaltools.wbs+xml", ["wbs"]),
   ("application/vnd.cups-ppd", ["ppd"]),
   ("application/vnd.curl.car", ["car"]),
   ("application/vnd.curl.pcurl", ["pcurl"]),
   ("application/vnd.dart", ["dart"]),
   ("application/vnd.data-vision.rdz", ["rdz"]),
   ("application/vnd.dece.data", ["uvd", "uvf", "uvvd", "uvvf"]),
   ("application/vnd.dece.ttml+xml", ["uvt", "uvvt"]),
   ("application/vnd.dece.unspecified", ["uvvx", "uvx"]),
   ("application/vnd.dece.zip", ["uvvz", "uvz"]),
   ("application/vnd.denovo.fcselayout-link", ["fe_launch"]),
   ("application/vnd.dna", ["dna"]),
   ("application/vnd.dolby.mlp", ["mlp"]),
   ("application/vnd.dpgraph", ["dpg"]),
   ("application/vnd.dreamfactory", ["dfac"]),
   ("application/vnd.ds-keypoint", ["kpxx"]),
   ("application/vnd.dvb.ait", ["ait"]),
   ("application/vnd.dynageo", ["geo"]),
   ("application/vnd.ecowin.chart", ["mag"]),
   ("application/vnd.enliven", ["nml"]),
   ("application/vnd.epson.esf", ["esf"]),
   ("application/vnd.epson.msf", ["msf"]),
   ("application/vnd.epson.quickanime", ["qam"]),
   ("application/vnd.epson.salt", ["slt"]),
   ("application/vnd.epson.ssf", ["ssf"]),
   ("application/vnd.eszigno3+xml", ["es3", "et3"]),
   ("application/vnd.ezpix-album", ["ez2"]),
   ("application/vnd.ezpix-package", ["ez3"]),
   ("application/vnd.fdf", ["fdf"]),
   ("application/vnd.fdsn.mseed", ["mseed"]),
   ("application/vnd.fdsn.seed", ["dataless", "seed"]),
   ("application/vnd.flographit", ["gph"]),
   ("application/vnd.fluxtime.clip", ["ftc"]),
   ("application/vnd.framemaker", ["book", "fm", "frame", "maker"]),
   ("application/vnd.frogans.fnc", ["fnc"]),
   ("application/vnd.frogans.ltf", ["ltf"]),
   ("application/vnd.fsc.weblaunch", ["fsc"]),
   ("application/vnd.fujitsu.oasys", ["oas"]),
   ("application/vnd.fujitsu.oasys2", ["oa2"]),
   ("application/vnd.fujitsu.oasys3", ["oa3"]),
   ("application/vnd.fujitsu.oasysgp", ["fg5"]),
   ("application/vnd.fujitsu.oasysprs", ["bh2"]),
   ("application/vnd.fujixerox.ddd", ["ddd"]),
   ("application/vnd.fujixerox.docuworks", ["xdw"]),
   ("application/vnd.fujixerox.docuworks.binder", ["xbd"]),
   ("application/vnd.fuzzysheet", ["fzs"]),
   ("application/vnd.genomatix.tuxedo", ["txd"]),
   ("application/vnd.geogebra.file", ["ggb"]),
   ("application/vnd.geogebra.tool", ["ggt"]),
   ("application/vnd.geometry-explorer", ["gex", "gre"]),
   ("application/vnd.geonext", ["gxt"]),
   ("application/vnd.geoplan", ["g2w"]),
   ("application/vnd.geospace", ["g3w"]),
   ("application/vnd.gmx", ["gmx"]),
   ("application/vnd.google-apps.document", ["gdoc"]),
   ("application/vnd.google-apps.presentation", ["gslides"]),
   ("application/vnd.google-apps.spreadsheet", ["gsheet"]),
   ("application/vnd.google-earth.kml+xml", ["kml"]),
   ("application/vnd.google-earth.kmz", ["kmz"]),
   ("application/vnd.grafeq", ["gqf", "gqs"]),
   ("application/vnd.groove-account", ["gac"]),
   ("application/vnd.groove-help", ["ghf"]),
   ("application/vnd.groove-identity-message", ["gim"]),
   ("application/vnd.groove-injector", ["grv"]),
   ("application/vnd.groove-tool-message", ["gtm"]),
   ("application/vnd.groove-tool-template", ["tpl"]),
   ("application/vnd.groove-vcard", ["vcg"]),
   ("application/vnd.hal+xml", ["hal"]),
   ("application/vnd.handheld-entertainment+xml", ["zmm"]),
   ("application/vnd.hbci", ["hbci"]),
   ("application/vnd.hhe.lesson-player", ["les"]),
   ("application/vnd.hp-hpgl", ["hpgl"]),
   ("application/vnd.hp-hpid", ["hpid"]),
   ("application/vnd.hp-hps", ["hps"]),
   ("application/vnd.hp-jlyt", ["jlt"]),
   ("application/vnd.hp-pcl", ["pcl"]),
   ("application/vnd.hp-pclxl", ["pclxl"]),
   ("application/vnd.hydrostatix.sof-data", ["sfd-hdstx"]),
   ("application/vnd.ibm.minipay", ["mpy"]),
   ("application/vnd.ibm.modcap", ["afp", "list3820", "listafp"]),
   ("application/vnd.ibm.rights-management", ["irm"]),
   ("application/vnd.ibm.secure-container", ["sc"]),
   ("application/vnd.iccprofile", ["icc", "icm"]),
   ("application/vnd.igloader", ["igl"]),
   ("application/vnd.immervision-ivp", ["ivp"]),
   ("application/vnd.immervision-ivu", ["ivu"]),
   ("application/vnd.insors.igm", ["igm"]),
   ("application/vnd.intercon.formnet", ["xpw", "xpx"]),
   ("application/vnd.intergeo", ["i2g"]),
   ("application/vnd.intu.qbo", ["qbo"]),
   ("application/vnd.intu.qfx", ["qfx"]),
   ("application/vnd.ipunplugged.rcprofile", ["rcprofile"]),
   ("application/vnd.irepository.package+xml", ["irp"]),
   ("application/vnd.is-xpr", ["xpr"]),
   ("application/vnd.isac.fcs", ["fcs"]),
   ("application/vnd.jam", ["jam"]),
   ("application/vnd.jcp.javame.midlet-rms", ["rms"]),
   ("application/vnd.jisp", ["jisp"]),
   ("application/vnd.joost.joda-archive", ["joda"]),
   ("application/vnd.kahootz", ["ktr", "ktz"]),
   ("application/vnd.kde.karbon", ["karbon"]),
   ("application/vnd.kde.kchart", ["chrt"]),
   ("application/vnd.kde.kformula", ["kfo"]),
   ("application/vnd.kde.kivio", ["flw"]),
   ("application/vnd.kde.kontour", ["kon"]),
   ("application/vnd.kde.kpresenter", ["kpr", "kpt"]),
   ("application/vnd.kde.kspread", ["ksp"]),
   ("application/vnd.kde.kword", ["kwd", "kwt"]),
   ("application/vnd.kenameaapp", ["htke"]),
   ("application/vnd.kidspiration", ["kia"]),
   ("application/vnd.kinar", ["kne", "knp"]),
   ("application/vnd.koan", ["skd", "skm", "skt"]),
   ("application/vnd.kodak-descriptor", ["sse"]),
   ("application/vnd.las.las+xml", ["lasxml"]),
   ("application/vnd.llamagraphics.life-balance.desktop", ["lbd"]),
   ("application/vnd.llamagraphics.life-balance.exchange+xml", ["lbe"]),
   ("application/vnd.lotus-1-2-3", ["123"]),
   ("application/vnd.lotus-approach", ["apr"]),
   ("application/vnd.lotus-freelance", ["pre"]),
   ("application/vnd.lotus-notes", ["nsf"]),
   ("application/vnd.lotus-organizer", ["org"]),
   ("application/vnd.lotus-screencam", ["scm"]),
   ("application/vnd.lotus-wordpro", ["lwp"]),
   ("application/vnd.macports.portpkg", ["portpkg"]),
   ("application/vnd.mcd", ["mcd"]),
   ("application/vnd.medcalcdata", ["mc1"]),
   ("application/vnd.mediastation.cdkey", ["cdkey"]),
   ("application/vnd.mfer", ["mwf"]),
   ("application/vnd.mfmp", ["mfm"]),
   ("application/vnd.micrografx.flo", ["flo"]),
   ("application/vnd.micrografx.igx", ["igx"]),
   ("application/vnd.mif", ["mif"]),
   ("application/vnd.mobius.daf", ["daf"]),
   ("application/vnd.mobius.dis", ["dis"]),
   ("application/vnd.mobius.mbk", ["mbk"]),
   ("application/vnd.mobius.mqy", ["mqy"]),
   ("application/vnd.mobius.msl", ["msl"]),
   ("application/vnd.mobius.plc", ["plc"]),
   ("application/vnd.mobius.txf", ["txf"]),
   ("application/vnd.mophun.application", ["mpn"]),
   ("application/vnd.mophun.certificate", ["mpc"]),
   ("application/vnd.mozilla.xul+xml", ["xul"]),
   ("application/vnd.ms-artgalry", ["cil"]),
   ("application/vnd.ms-excel",
     ["slk", "xla", "xlc", "xld", "xlk", "xll", "xlm", "xls", "xlt", "xlw"]),
   ("application/vnd.ms-excel.addin.macroEnabled.12", ["xlam"]),
   ("application/vnd.ms-excel.sheet.binary.macroEnabled.12", ["xlsb"]),
   ("application/vnd.ms-excel.sheet.macroEnabled.12", ["xlsm"]),
   ("application/vnd.ms-excel.template.macroEnabled.12", ["xltm"]),
   ("application/vnd.ms-fontobject", ["eot"]),
   ("application/vnd.ms-htmlhelp", ["chm"]),
   ("application/vnd.ms-ims", ["ims"]),
   ("application/vnd.ms-lrm", ["lrm"]),
   ("application/vnd.ms-mediapackage", ["mpf"]),
   ("application/vnd.ms-office.calx", ["calx"]),
   ("application/vnd.ms-officetheme", ["thmx"]),
   ("application/vnd.ms-outlook", ["msg", "pst"]),
   ("application/vnd.ms-pki.certstore", ["sst"]),
   ("application/vnd.ms-pki.pko", ["pko"]),
   ("application/vnd.ms-pki.seccat", ["cat"]),
   ("application/vnd.ms-pki.stl", ["stl"]),
   ("application/vnd.ms-powerpoint", ["pot", "ppa", "pps", "ppt", "pwz"]),
   ("application/vnd.ms-powerpoint.addin.macroEnabled.12", ["ppam"]),
   ("application/vnd.ms-powerpoint.presentation.macroEnabled.12", ["pptm"]),
   ("application/vnd.ms-powerpoint.slide.macroEnabled.12", ["sldm"]),
   ("application/vnd.ms-powerpoint.slideshow.macroEnabled.12", ["ppsm"]),
   ("application/vnd.ms-powerpoint.template.macroEnabled.12", ["potm"]),
   ("application/vnd.ms-project", ["mpp", "mpt"]),
   ("application/vnd.ms-visio.viewer", ["vdx"]),
   ("application/vnd.ms-word.document.macroEnabled.12", ["docm"]),
   ("application/vnd.ms-word.template.macroEnabled.12", ["dotm"]),
   ("application/vnd.ms-works", ["wcm", "wdb", "wks", "wps"]),
   ("application/vnd.ms-wpl", ["wpl"]),
   ("application/vnd.ms-xpsdocument", ["xps"]),
   ("application/vnd.mseq", ["mseq"]),
   ("application/vnd.musician", ["mus"]),
   ("application/vnd.muvee.style", ["msty"]),
   ("application/vnd.mynfc", ["taglet"]),
   ("application/vnd.neurolanguage.nlu", ["nlu"]),
   ("application/vnd.nitf", ["nitf", "ntf"]),
   ("application/vnd.noblenet-directory", ["nnd"]),
   ("application/vnd.noblenet-sealer", ["nns"]),
   ("application/vnd.noblenet-web", ["nnw"]),
   ("application/vnd.nokia.n-gage.data", ["ngdat"]),
   ("application/vnd.nokia.n-gage.symbian.install", ["n-gage"]),
   ("application/vnd.nokia.radio-preset", ["rpst"]),
   ("application/vnd.nokia.radio-presets", ["rpss"]),
   ("application/vnd.novadigm.edm", ["edm"]),
   ("application/vnd.novadigm.edx", ["edx"]),
   ("application/vnd.novadigm.ext", ["ext"]),
   ("application/vnd.oasis.opendocument.chart", ["odc"]),
   ("application/vnd.oasis.opendocument.chart-template", ["otc"]),
   ("application/vnd.oasis.opendocument.database", ["odb"]),
   ("application/vnd.oasis.opendocument.formula", ["odf"]),
   ("application/vnd.oasis.opendocument.formula-template", ["odft"]),
   ("application/vnd.oasis.opendocument.graphics", ["odg"]),
   ("application/vnd.oasis.opendocument.graphics-template", ["otg"]),
   ("application/vnd.oasis.opendocument.image", ["odi"]),
   ("application/vnd.oasis.opendocument.image-template", ["oti"]),
   ("application/vnd.oasis.opendocument.presentation", ["odp"]),
   ("application/vnd.oasis.opendocument.presentation-template", ["otp"]),
   ("application/vnd.oasis.opendocument.spreadsheet", ["ods"]),
   ("application/vnd.oasis.opendocument.spreadsheet-template", ["ots"]),
   ("application/vnd.oasis.opendocument.text", ["odt"]),
   ("application/vnd.oasis.opendocument.text-master", ["odm"]),
   ("application/vnd.oasis.opendocument.text-template", ["ott"]),
   ("application/vnd.oasis.opendocument.text-web", ["oth"]),
   ("application/vnd.olpc-sugar", ["xo"]),
   ("application/vnd.oma.dd2+xml", ["dd2"]),
   ("application/vnd.openofficeorg.extension", ["oxt"]),
   ("application/vnd.openxmlformats-officedocument.presentationml.presentation", ["pptx"]),
   ("application/vnd.openxmlformats-officedocument.presentationml.slide", ["sldx"]),
   ("application/vnd.openxmlformats-officedocument.presentationml.slideshow", ["ppsx"]),
   ("application/vnd.openxmlformats-officedocument.presentationml.template", ["potx"]),
   ("application/vnd.openxmlformats-officedocument.spreadsheetml.sheet", ["xlsx"]),
   ("application/vnd.openxmlformats-officedocument.spreadsheetml.template", ["xltx"]),
   ("application/vnd.openxmlformats-officedocument.wordprocessingml.document", ["docx"]),
   ("application/vnd.openxmlformats-officedocument.wordprocessingml.template", ["dotx"]),
   ("application/vnd.osgeo.mapguide.package", ["mgp"]),
   ("application/vnd.osgi.dp", ["dp"]),
   ("application/vnd.osgi.subsystem", ["esa"]),
   ("application/vnd.palm", ["oprc", "pdb", "pqa"]),
   ("application/vnd.pawaafile", ["paw"]),
   ("application/vnd.pg.format", ["str"]),
   ("application/vnd.pg.osasli", ["ei6"]),
   ("application/vnd.picsel", ["efif"]),
   ("application/vnd.pmi.widget", ["wg"]),
   ("application/vnd.pocketlearn", ["plf"]),
   ("application/vnd.powerbuilder6", ["pbd"]),
   ("application/vnd.previewsystems.box", ["box"]),
   ("application/vnd.proteus.magazine", ["mgz"]),
   ("application/vnd.publishare-delta-tree", ["qps"]),
   ("application/vnd.pvi.ptid1", ["ptid"]),
   ("application/vnd.quark.quarkxpress", ["qwd", "qwt", "qxb", "qxl", "qxt"]),
   ("application/vnd.realvnc.bed", ["bed"]),
   ("application/vnd.recordare.musicxml", ["mxl"]),
   ("application/vnd.recordare.musicxml+xml", ["musicxml"]),
   ("application/vnd.rig.cryptonote", ["cryptonote"]),
   ("application/vnd.rn-realmedia", ["rm"]),
   ("application/vnd.rn-realmedia-vbr", ["rmvb"]),
   ("application/vnd.rn-rn_music_package", ["rmp"]),
   ("application/vnd.route66.link66+xml", ["link66"]),
   ("application/vnd.sailingtracker.track", ["st"]),
   ("application/vnd.seemail", ["see"]),
   ("application/vnd.sema", ["sema"]),
   ("application/vnd.semd", ["semd"]),
   ("application/vnd.semf", ["semf"]),
   ("application/vnd.shana.informed.formdata", ["ifm"]),
   ("application/vnd.shana.informed.formtemplate", ["itp"]),
   ("application/vnd.shana.informed.interchange", ["iif"]),
   ("application/vnd.shana.informed.package", ["ipk"]),
   ("application/vnd.simtech-mindmapper", ["twd", "twds"]),
   ("application/vnd.smart.teacher", ["teacher"]),
   ("application/vnd.solent.sdkm+xml", ["sdkd", "sdkm"]),
   ("application/vnd.spotfire.dxp", ["dxp"]),
   ("application/vnd.spotfire.sfs", ["sfs"]),
   ("application/vnd.stardivision.calc", ["sdc"]),
   ("application/vnd.stardivision.draw", ["sda"]),
   ("application/vnd.stardivision.impress", ["sdd"]),
   ("application/vnd.stardivision.math", ["smf"]),
   ("application/vnd.stardivision.writer", ["sdw", "vor"]),
   ("application/vnd.stardivision.writer-global", ["sgl"]),
   ("application/vnd.stepmania.package", ["smzip"]),
   ("application/vnd.stepmania.stepchart", ["sm"]),
   ("application/vnd.sun.wadl+xml", ["wadl"]),
   ("application/vnd.sun.xml.calc", ["sxc"]),
   ("application/vnd.sun.xml.calc.template", ["stc"]),
   ("application/vnd.sun.xml.draw", ["sxd"]),
   ("application/vnd.sun.xml.draw.template", ["std"]),
   ("application/vnd.sun.xml.impress", ["sxi"]),
   ("application/vnd.sun.xml.impress.template", ["sti"]),
   ("application/vnd.sun.xml.math", ["sxm"]),
   ("application/vnd.sun.xml.writer", ["sxw"]),
   ("application/vnd.sun.xml.writer.global", ["sxg"]),
   ("application/vnd.sun.xml.writer.template", ["stw"]),
   ("application/vnd.sus-calendar", ["sus", "susp"]),
   ("application/vnd.svd", ["svd"]),
   ("application/vnd.symbian.install", ["sis", "sisx"]),
   ("application/vnd.syncml+xml", ["xsm"]),
   ("application/vnd.syncml.dm+wbxml", ["bdm"]),
   ("application/vnd.syncml.dm+xml", ["xdm"]),
   ("application/vnd.tao.intent-module-archive", ["tao"]),
   ("application/vnd.tcpdump.pcap", ["cap", "dmp", "pcap"]),
   ("application/vnd.tmobile-livetv", ["tmo"]),
   ("application/vnd.trid.tpt", ["tpt"]),
   ("application/vnd.triscape.mxs", ["mxs"]),
   ("application/vnd.trueapp", ["tra"]),
   ("application/vnd.ufdl", ["ufd", "ufdl"]),
   ("application/vnd.uiq.theme", ["utz"]),
   ("application/vnd.umajin", ["umj"]),
   ("application/vnd.unity", ["unityweb"]),
   ("application/vnd.uoml+xml", ["uoml"]),
   ("application/vnd.vcx", ["vcx"]),
   ("application/vnd.visio", ["vsd", "vss", "vst", "vsw", "vsx", "vtx"]),
   ("application/vnd.visionary", ["vis"]),
   ("application/vnd.vsf", ["vsf"]),
   ("application/vnd.wap.wbxml", ["wbxml"]),
   ("application/vnd.wap.wmlc", ["wmlc"]),
   ("application/vnd.wap.wmlscriptc", ["wmlsc"]),
   ("application/vnd.webturbo", ["wtb"]),
   ("application/vnd.wolfram.player", ["nbp"]),
   ("application/vnd.wordperfect", ["wpd"]),
   ("application/vnd.wqd", ["wqd"]),
   ("application/vnd.wt.stf", ["stf"]),
   ("application/vnd.xara", ["xar"]),
   ("application/vnd.xfdl", ["xfdl"]),
   ("application/vnd.yamaha.hv-dic", ["hvd"]),
   ("application/vnd.yamaha.hv-script", ["hvs"]),
   ("application/vnd.yamaha.hv-voice", ["hvp"]),
   ("application/vnd.yamaha.openscoreformat", ["osf"]),
   ("application/vnd.yamaha.openscoreformat.osfpvg+xml", ["osfpvg"]),
   ("application/vnd.yamaha.smaf-audio", ["saf"]),
   ("application/vnd.yamaha.smaf-phrase", ["spf"]),
   ("application/vnd.yellowriver-custom-menu", ["cmp"]),
   ("application/vnd.zul", ["zir", "zirz"]),
   ("application/vnd.zzazz.deck+xml", ["zaz"])]

/-- Media types of applications for private use. -/
def privateTypes : List (String × List String) :=
  [("application/x-7z-compressed", ["7z"]),
   ("application/x-abiword", ["abw"]),
   ("application/x-ace-compressed", ["ace"]),
   ("application/x-arj", ["arj"]),
   ("application/x-authorware-bin", ["aab", "vox", "x32"]),
   ("application/x-authorware-map", ["aam"]),
   ("application/x-authorware-seg", ["aas"]),
   ("application/x-bcpio", ["bcpio"]),
   ("application/x-bittorrent", ["torrent"]),
   ("application/x-blorb", ["blb", "blorb"]),
   ("application/x-bridge-url", ["adobebridge"]),
   ("application/x-bzip", ["bz"]),
   ("application/x-bzip2", ["boz", "bz2"]),
   ("application/x-cbr", ["cb7", "cba", "cbr", "cbt", "cbz"]),
   ("application/x-cdf", ["cdf"]),
   ("application/x-cdlink", ["vcd"]),
   ("application/x-cfs-compressed", ["cfs"]),
   ("application/x-chat", ["chat"]),
   ("application/x-chess-pgn", ["pgn"]),
   ("application/x-chrome-extension", ["crx"]),
   ("application/x-cocoa", ["cco"]),
   ("application/x-compress", ["z"]),
   ("application/x-compressed", ["tgz"]),
   ("application/x-cpio", ["cpio"]),
   ("application/x-csh", ["csh"]),
   ("application/x-debian-package", ["udeb"]),
   ("application/x-dgc-compressed", ["dgc"]),
   ("application/x-director", ["cct", "cst", "cxt", "dcr", "dir", "dxr", "fgd", "swa", "w3d"]),
   ("application/x-doom", ["wad"]),
   ("application/x-dtbncx+xml", ["ncx"]),
   ("application/x-dtbook+xml", ["dtb"]),
   ("application/x-dtbresource+xml", ["res"]),
   ("application/x-dvi", ["dvi"]),
   ("application/x-dxf", ["dxf"]),
   ("application/x-endace-erf", ["erf"]),
   ("application/x-eva", ["eva"]),
   ("application/x-font-bdf", ["bdf"]),
   ("application/x-font-ghostscript", ["gsf"]),
   ("application/x-font-linux-psf", ["psf"]),
   ("application/x-font-pcf", ["pcf"]),
   ("application/x-font-snf", ["snf"]),
   ("application/x-font-type1", ["pfa"]),
   ("application/x-freearc", ["arc"]),
   ("application/x-gca-compressed", ["gca"]),
   ("application/x-glulx", ["ulx"]),
   ("application/x-gnumeric", ["gnumeric"]),
   ("application/x-gramps-xml", ["gramps"]),
   ("application/x-gtar", ["gtar"]),
   ("application/x-hdf", ["hdf"]),
   ("application/x-httpd-php", ["php"]),
   ("application/x-install-instructions", ["install"]),
   ("application/x-internet-signup", ["ins", "isp"]),
   ("application/x-iphone", ["iii"]),
   ("application/x-itunes-ipa", ["ipa"]),
   ("application/x-itunes-ipg", ["ipg"]),
   ("application/x-itunes-ipsw", ["ipsw"]),
   ("application/x-itunes-ite", ["ite"]),
   ("application/x-itunes-itlp", ["itlp"]),
   ("application/x-itunes-itms", ["itms"]),
   ("application/x-itunes-itpc", ["itpc"]),
   ("application/x-java-applet", ["class"]),
   ("application/x-java-archive-diff", ["jardiff"]),
   ("application/x-java-jnlp-file", ["jnlp"]),
   ("application/x-koan", ["skp"]),
   ("application/x-latex", ["latex"]),
   ("application/x-lua-bytecode", ["luac"]),
   ("application/x-lzh-compressed", ["lha"]),
   ("application/x-makeself", ["run"]),
   ("application/x-mie", ["mie"]),
   ("application/x-miva-compiled", ["mvc"]),
   ("application/x-mmxp", ["mxp"]),
   ("application/x-mobipocket-ebook", ["mobi", "prc"]),
   ("application/x-ms-application", ["application"]),
   ("application/x-ms-license", ["slupkg-ms"]),
   ("application/x-ms-manifest", ["manifest"]),
   ("application/x-ms-reader", ["lit"]),
   ("application/x-ms-shortcut", ["lnk"]),
   ("application/x-ms-vsto", ["vsto"]),
   ("application/x-ms-wmd", ["wmd"]),
   ("application/x-ms-wmz", ["wmz"]),
   ("application/x-ms-xbap", ["xbap"]),
   ("application/x-msaccess", ["mdb"]),
   ("application/x-msbinder", ["obd"]),
   ("application/x-mscardfile", ["crd"]),
   ("application/x-msclip", ["clp"]),
   ("application/x-msdownload", ["bat", "com", "dll"]),
   ("application/x-msmediaview", ["m13", "m14", "mvb"]),
   ("application/x-msmetafile", ["emf", "wmf"]),
   ("application/x-msmoney", ["mny"]),
   ("application/x-mspublisher", ["pub"]),
   ("application/x-msschedule", ["scd"]),
   ("application/x-msterminal", ["trm"]),
   ("application/x-mswrite", ["wri"]),
   ("application/x-netcdf", ["nc"]),
   ("application/x-ns-proxy-autoconfig", ["pac"]),
   ("application/x-nzb", ["nzb"]),
   ("application/x-oleobject", ["hhc"]),
   ("application/x-perfmon", ["pma", "pmc", "pml", "pmr", "pmw"]),
   ("application/x-perl", ["pl", "pm"]),
   ("application/x-pkcs12", ["p12", "pfx"]),
   ("application/x-pkcs7-certificates", ["p7b", "spc"]),
   ("application/x-pkcs7-certreqresp", ["p7r"]),
   ("application/x-podcast", ["pcast"]),
   ("application/x-quicktimeplayer", ["qtl"]),
   ("application/x-rar-compressed", ["rar"]),
   ("application/x-research-info-systems", ["ris"]),
   ("application/x-safari-safariextz", ["safariextz"]),
   ("application/x-safari-webarchive", ["webarchive"]),
   ("application/x-sgimb", ["sgimb"]),
   ("application/x-sh", ["sh"]),
   ("application/x-shar", ["shar"]),
   ("application/x-shockwave-flash", ["mfp", "swf"]),
   ("application/x-silverlight-app", ["xap"]),
   ("application/x-smaf", ["mmf"]),
   ("application/x-sql", ["sql"]),
   ("application/x-stuffit", ["sit"]),
   ("application/x-stuffitx", ["sitx"]),
   ("application/x-subrip", ["srt"]),
   ("application/x-sv4cpio", ["sv4cpio"]),
   ("application/x-sv4crc", ["sv4crc"]),
   ("application/x-t3vm-image", ["t3"]),
   ("application/x-tads", ["gam"]),
   ("application/x-tar", ["tar"]),
   ("application/x-tcl", ["tcl", "tk"]),
   ("application/x-tex", ["tex"]),
   ("application/x-tex-tfm", ["tfm"]),
   ("application/x-texinfo", ["texi", "texinfo"]),
   ("application/x-tgif", ["obj"]),
   ("application/x-troff", ["roff", "t", "tr"]),
   ("application/x-troff-man", ["man"]),
   ("application/x-troff-me", ["me"]),
   ("application/x-troff-ms", ["ms"]),
   ("application/x-ustar", ["ustar"]),
   ("application/x-virtualbox-hdd", ["hdd"]),
   ("application/x-virtualbox-ova", ["ova"]),
   ("application/x-virtualbox-ovf", ["ovf"]),
   ("application/x-virtualbox-vbox", ["vbox"]),
   ("application/x-virtualbox-vbox-extpack", ["vbox-extpack"]),
   ("application/x-virtualbox-vdi", ["vdi"]),
   ("application/x-virtualbox-vhd", ["vhd"]),
   ("application/x-virtualbox-vmdk", ["vmdk"]),
   ("application/x-wais-source", ["src"]),
   ("application/x-web-app-manifest+json", ["webapp"]),
   ("application/x-wlpg-detect", ["wlpginstall"]),
   ("application/x-wlpg3-detect", ["wlpginstall3"]),
   ("application/x-x509-ca-cert", ["cer", "crt", "der", "pem"]),
   ("application/x-xfig", ["fig"]),
   ("application/x-xliff+xml", ["xlf"]),
   ("application/x-xpinstall", ["xpi"]),
   ("application/x-xz", ["xz"]),
   ("application/x-zmachine", ["z1", "z2", "z3", "z4", "z5", "z6", "z7", "z8"])]

def audioTypes : List (String × List String) :=
  [("audio/aac", ["aac", "adts"]),
   ("audio/ac3", ["ac3"]),
   ("audio/aiff", ["aif", "aifc", "aiff", "cdda"]),
   ("audio/annodex", ["axa"]),
   ("audio/audible", ["aa"]),
   ("audio/basic", ["au", "snd"]),
   ("audio/flac", ["flac"]),
   ("audio/m4a", ["m4a"]),
   ("audio/m4b", ["m4b"]),
   ("audio/m4p", ["m4p"]),
   ("audio/mid", ["mid", "midi", "rmi"]),
   ("audio/midi", ["kar"]),
   ("audio/mp4", ["mp4a"]),
   ("audio/mpeg", ["m2a", "m3a", "mp2", "mp2a", "mp3", "mpga"]),
   ("audio/ogg", ["oga", "ogg", "opus", "spx"]),
   ("audio/s3m", ["s3m"]),
   ("audio/scpls", ["pls"]),
   ("audio/silk", ["sil"]),
   ("audio/vnd.audible.aax", ["aax"]),
   ("audio/vnd.dece.audio", ["uva", "uvva"]),
   ("audio/vnd.digital-winds", ["eol"]),
   ("audio/vnd.dlna.adts", ["adt"]),
   ("audio/vnd.dra", ["dra"]),
   ("audio/vnd.dts", ["dts"]),
   ("audio/vnd.dts.hd", ["dtshd"]),
   ("audio/vnd.lucent.voice", ["lvp"]),
   ("audio/vnd.ms-playready.media.pya", ["pya"]),
   ("audio/vnd.nuera.ecelp4800", ["ecelp4800"]),
   ("audio/vnd.nuera.ecelp7470", ["ecelp7470"]),
   ("audio/vnd.nuera.ecelp9600", ["ecelp9600"]),
   ("audio/vnd.rip", ["rip"]),
   ("audio/wav", ["wav", "wave"]),
   ("audio/webm", ["weba"]),
   ("audio/x-caf", ["caf"]),
   ("audio/x-gsm", ["gsm"]),
   ("audio/x-m4r", ["m4r"]),
   ("audio/x-matroska", ["mka"]),
   ("audio/x-mpegurl", ["m3u", "m3u8"]),
   ("audio/x-ms-wax", ["wax"]),
   ("audio/x-ms-wma", ["wma"]),
   ("audio/x-pn-realaudio", ["ra", "ram"]),
   ("audio/x-pn-realaudio-plugin", ["rpm"]),
   ("audio/x-sd2", ["sd2"]),
   ("audio/x-smd", ["smd", "smx", "smz"]),
   ("audio/xm", ["xm"])]

def imageTypes : List (String × List String) :=
  [("image/apng", ["apng"]),
   ("image/avif", ["avif"]),
   ("image/avif-sequence", ["avifs"]),
   ("image/bmp", ["bmp", "dib"]),
   ("image/cgm", ["cgm"]),
   ("image/cis-cod", ["cod"]),
   ("image/g3fax", ["g3"]),
   ("image/gif", ["gif"]),
   ("image/heic", ["heic"]),
   ("image/heic-sequence", ["heics"]),
   ("image/heif", ["heif"]),
   ("image/heif-sequence", ["heifs"]),
   ("image/ief", ["ief"]),
   ("image/jp2", ["jp2", "jpg2"]),
   ("image/jpeg", ["jfif", "jpe", "jpeg", "jpg"]),
   ("image/jpm", ["jpm"]),
   ("image/jpx", ["jpf", "jpx"]),
   ("image/jxl", ["jxl"]),
   ("image/ktx", ["ktx"]),
   ("image/pict", ["pct", "pic", "pict"]),
   ("image/png", ["png", "pnz"]),
   ("image/prs.btif", ["btif"]),
   ("image/sgi", ["sgi"]),
   ("image/svg+xml", ["svg", "svgz"]),
   ("image/tiff", ["tif", "tiff"]),
   ("image/vnd.dece.graphic", ["uvg", "uvi", "uvvg", "uvvi"]),
   ("image/vnd.djvu", ["djv", "djvu"]),
   ("image/vnd.fastbidsheet", ["fbs"]),
   ("image/vnd.fpx", ["fpx"]),
   ("image/vnd.fst", ["fst"]),
   ("image/vnd.fujixerox.edmics-mmr", ["mmr"]),
   ("image/vnd.fujixerox.edmics-rlc", ["rlc"]),
   ("image/vnd.ms-modi", ["mdi"]),
   ("image/vnd.ms-photo", ["wdp"]),
   ("image/vnd.net-fpx", ["npx"]),
   ("image/vnd.radiance", ["hdr"]),
   ("image/vnd.rn-realflash", ["rf"]),
   ("image/vnd.wap.wbmp", ["wbmp"]),
   ("image/vnd.xiff", ["xif"]),
   ("image/webp", ["webp"]),
   ("image/x-3ds", ["3ds"]),
   ("image/x-adobe-dng", ["dng"]),
   ("image/x-canon-cr2", ["cr2"]),
   ("image/x-canon-cr3", ["cr3"]),
   ("image/x-canon-crw", ["crw"]),
   ("image/x-cmu-raster", ["ras"]),
   ("image/x-cmx", ["cmx"]),
   ("image/x-freehand", ["fh", "fh4", "fh5", "fh7", "fhc"]),
   ("image/x-fuji-raf", ["raf"]),
   ("image/x-icon", ["ico"]),
   ("image/x-jg", ["art"]),
   ("image/x-jng", ["jng"]),
   ("image/x-kodak-k25", ["k25"]),
   ("image/x-kodak-kdc", ["kdc"]),
   ("image/x-macpaint", ["mac", "pnt", "pntg"]),
   ("image/x-minolta-mrw", ["mrw"]),
   ("image/x-mrsid-image", ["sid"]),
   ("image/x-nikon-nef", ["nef"]),
   ("image/x-nikon-nrw", ["nrw"]),
   ("image/x-olympus-orf", ["orf"]),
   ("image/x-panasonic-rw", ["raw"]),
   ("image/x-panasonic-rw2", ["rw2", "rwl"]),
   ("image/x-pentax-pef", ["pef"]),
   ("image/x-portable-anymap", ["pnm"]),
   ("image/x-portable-bitmap", ["pbm"]),
   ("image/x-portable-graymap", ["pgm"]),
   ("image/x-portable-pixmap", ["ppm"]),
   ("image/x-quicktime", ["qti", "qtif"]),
   ("image/x-rgb", ["rgb"]),
   ("image/x-sigma-x3f", ["x3f"]),
   ("image/x-sony-arw", ["arw"]),
   ("image/x-sony-sr2", ["sr2"]),
   ("image/x-tga", ["tga"]),
   ("image/x-xbitmap", ["xbm"]),
   ("image/x-xpixmap", ["xpm"]),
   ("image/x-xwindowdump", ["xwd"])]

def textTypes : List (String × List String) :=
  [("text/cache-manifest", ["appcache"]),
   ("text/calendar", ["ics", "ifb"]),
   ("text/coffeescript", ["coffee", "litcoffee"]),
   ("text/css", ["css"]),
   ("text/csv", ["csv"]),
   ("text/dlm", ["dlm"]),
   ("text/gemini", ["gemini", "gmi"]),
   ("text/h323", ["323"]),
   ("text/html", ["htm", "html", "hxt", "shtml"]),
   ("text/iuls", ["uls"]),
   ("text/jade", ["jade"]),
   ("text/javascript", ["ecma", "es", "js", "jsm", "jsx"]),
   ("text/less", ["less"]),
   ("text/markdown", ["markdown", "md"]),
   ("text/mathml", ["mml"]),
   ("text/n3", ["n3"]),
   ("text/plain",
     ["asm", "bas", "c", "cc", "cd", "cfg", "cmd", "cnf", "conf", "cpp", "cs", "csdproj", "csproj",
      "cxx", "dbproj", "def", "dsw", "h", "hh", "hpp", "hxx", "i", "idl", "in", "inc", "ini", "inl",
      "ipproj", "jsxbin", "list", "log", "lst", "mak", "map", "mk", "odh", "odl", "pkgdef",
      "pkgundef", "py", "rc", "rc2", "rct", "reg", "rgs", "s", "scr", "sln", "sol", "sor", "srf",
      "text", "tlh", "tli", "txt", "user", "vb", "vbdproj", "vbproj", "vcs", "vddproj", "vdp",
      "vdproj", "vspscc", "vsscc", "vssscc", "xdr", "xoml"]),
   ("text/prs.lines.tag", ["dsc"]),
   ("text/richtext", ["rtx"]),
   ("text/scriptlet", ["sct", "wsc"]),
   ("text/sgml", ["sgm", "sgml"]),
   ("text/shex", ["shex"]),
   ("text/slim", ["slim", "slm"]),
   ("text/stylus", ["styl", "stylus"]),
   ("text/tab-separated-values", ["tsv"]),
   ("text/turtle", ["ttl"]),
   ("text/uri-list", ["uri", "uris", "urls"]),
   ("text/vbscript", ["vbs"]),
   ("text/vcard", ["vcard"]),
   ("text/vnd.curl", ["curl"]),
   ("text/vnd.curl.dcurl", ["dcurl"]),
   ("text/vnd.curl.mcurl", ["mcurl"]),
   ("text/vnd.curl.scurl", ["scurl"]),
   ("text/vnd.dvb.subtitle", ["sub"]),
   ("text/vnd.fly", ["fly"]),
   ("text/vnd.fmi.flexstor", ["flx"]),
   ("text/vnd.graphviz", ["gv"]),
   ("text/vnd.in3d.3dml", ["3dml"]),
   ("text/vnd.in3d.spot", ["spot"]),
   ("text/vnd.sun.j2me.app-descriptor", ["jad"]),
   ("text/vnd.wap.wml", ["wml"]),
   ("text/vnd.wap.wmlscript", ["wmls"]),
   ("text/vtt", ["vtt"]),
   ("text/webviewhtml", ["htt"]),
   ("text/x-c", ["dic"]),
   ("text/x-component", ["htc"]),
   ("text/x-fortran", ["f", "f77", "f90", "for"]),
   ("text/x-gherkin", ["feature"]),
   ("text/x-handlebars-template", ["hbs"]),
   ("text/x-hdml", ["hdml"]),
   ("text/x-html-insertion", ["qht", "qhtm"]),
   ("text/x-lua", ["lua"]),
   ("text/x-markdown", ["mkd"]),
   ("text/x-ms-contact", ["contact"]),
   ("text/x-ms-group", ["group"]),
   ("text/x-ms-iqy", ["iqy"]),
   ("text/x-ms-rqy", ["rqy"]),
   ("text/x-nfo", ["nfo"]),
   ("text/x-opml", ["opml"]),
   ("text/x-pascal", ["p", "pas"]),
   ("text/x-processing", ["pde"]),
   ("text/x-rust", ["rs"]),
   ("text/x-sass", ["sass"]),
   ("text/x-scss", ["scss"]),
   ("text/x-setext", ["etx"]),
   ("text/x-sfv", ["sfv"]),
   ("text/x-suse-ymp", ["ymp"]),
   ("text/x-toml", ["toml"]),
   ("text/x-uuencode", ["uu"]),
   ("text/x-vcard", ["vcf"]),
   ("text/x-yaml", ["yaml", "yml"]),
   ("text/xml",
     ["addin", "disco", "dtd", "dtsconfig", "mno", "ssisdeploymentmanifest", "vml", "vsct",
      "vsixlangpack", "vsixmanifest", "vssettings", "vstemplate", "wsdl", "xml", "xrm-ms", "xsd",
      "xsf", "xsl", "xslt"])]

def videoTypes : List (String × List String) :=
  [("video/3gpp", ["3gp", "3gpp"]),
   ("video/3gpp2", ["3g2", "3gp2"]),
   ("video/annodex", ["axv"]),
   ("video/divx", ["divx"]),
   ("video/h261", ["h261"]),
   ("video/h263", ["h263"]),
   ("video/h264", ["h264"]),
   ("video/jpeg", ["jpgv"]),
   ("video/jpm", ["jpgm"]),
   ("video/mj2", ["mj2", "mjp2"]),
   ("video/mp4", ["mp4", "mp4v", "mpg4"]),
   ("video/mpeg", ["m1v", "m2v", "mod", "mp2v", "mpa", "mpe", "mpeg", "mpg", "mpv2", "vbk"]),
   ("video/ogg", ["ogv"]),
   ("video/quicktime", ["mov", "mqv", "qt"]),
   ("video/vnd.dece.hd", ["uvh", "uvvh"]),
   ("video/vnd.dece.mobile", ["uvm", "uvvm"]),
   ("video/vnd.dece.pd", ["uvp", "uvvp"]),
   ("video/vnd.dece.sd", ["uvs", "uvvs"]),
   ("video/vnd.dece.video", ["uvv", "uvvv"]),
   ("video/vnd.dlna.mpeg-tts", ["m2t", "m2ts", "mts", "ts", "tts"]),
   ("video/vnd.dvb.file", ["dvb"]),
   ("video/vnd.fvt", ["fvt"]),
   ("video/vnd.mpegurl", ["m4u", "mxu"]),
   ("video/vnd.ms-playready.media.pyv", ["pyv"]),
   ("video/vnd.uvvu.mp4", ["uvu", "uvvu"]),
   ("video/vnd.vivo", ["viv"]),
   ("video/webm", ["webm"]),
   ("video/x-dv", ["dif", "dv"]),
   ("video/x-f4v", ["f4v"]),
   ("video/x-fli", ["fli"]),
   ("video/x-flv", ["flv"]),
   ("video/x-ivf", ["ivf"]),
   ("video/x-la-asf", ["lsf", "lsx"]),
   ("video/x-m4v", ["m4v"]),
   ("video/x-matroska", ["mk3d", "mks", "mkv"]),
   ("video/x-mng", ["mng"]),
   ("video/x-ms-asf", ["asf", "asr", "asx", "nsc"]),
   ("video/x-ms-vob", ["vob"]),
   ("video/x-ms-wm", ["wm"]),
   ("video/x-ms-wmp", ["wmp"]),
   ("video/x-ms-wmv", ["wmv"]),
   ("video/x-ms-wmx", ["wmx"]),
   ("video/x-ms-wvx", ["wvx"]),
   ("video/x-msvideo", ["avi"]),
   ("video/x-sgi-movie", ["movie"]),
   ("video/x-smv", ["smv"])]

/-- Media types of fonts, messages, models and the rest. -/
def otherTypes : List (String × List String) :=
  [("chemical/x-cdx", ["cdx"]),
   ("chemical/x-cif", ["cif"]),
   ("chemical/x-cmdf", ["cmdf"]),
   ("chemical/x-cml", ["cml"]),
   ("chemical/x-csml", ["csml"]),
   ("chemical/x-xyz", ["xyz"]),
   ("drawing/x-dwf", ["dwf"]),
   ("font/collection", ["ttc"]),
   ("font/ttf", ["ttf"]),
   ("font/woff2", ["woff2"]),
   ("message/disposition-notification", ["disposition-notification"]),
   ("message/global", ["u8msg"]),
   ("message/global-delivery-status", ["u8dsn"]),
   ("message/global-disposition-notification", ["u8mdn"]),
   ("message/global-headers", ["u8hdr"]),
   ("message/rfc822", ["eml", "mht", "mhtml", "mime", "nws"]),
   ("model/gltf+json", ["gltf"]),
   ("model/gltf-binary", ["glb"]),
   ("model/iges", ["iges", "igs"]),
   ("model/mesh", ["mesh", "msh", "silo"]),
   ("model/vnd.collada+xml", ["dae"]),
   ("model/vnd.gdl", ["gdl"]),
   ("model/vnd.gtw", ["gtw"]),
   ("model/vnd.vtu", ["vtu"]),
   ("model/vrml", ["vrml"]),
   ("model/x3d+binary", ["x3db", "x3dbz"]),
   ("model/x3d+vrml", ["x3dv", "x3dvz"]),
   ("model/x3d+xml", ["x3d", "x3dz"]),
   ("x-conference/x-cooltalk", ["ice"]),
   ("x-world/x-vrml", ["flr", "wrl", "wrz", "xaf", "xof"])]

/-- All media types that an extension suggests. Every extension stands with one of them only, in lower case.
-/
def table : List (String × List String) :=
  registeredTypes ++ vendorTypes ++ privateTypes ++ audioTypes ++
    imageTypes ++ textTypes ++ videoTypes ++ otherTypes

end IndexVault.Http.FileExtension
